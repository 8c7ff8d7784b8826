import Wollipog.Patches.Lines
/-!
# Selected — staging exactly the selected lines

The patch that `extractSelectedLinePatch` writes is read back as one hunk that holds `pick`, with the counts of its own lines,
and put in its place it leaves `taken`.
-/
namespace Wollipog.Patches

open Json (Text CodeUnit digitUnits)
open Reviews (lit natText)
open Blocks

/-! ## Lines of a diff -/

variable {hunkIndex : ℕ} {raw s t text word : Text} {h : GitHunk} {c : CodeUnit}

theorem startsWith_cons_ne {w : CodeUnit} (h : w ≠ c) : startsWith (w :: word) (c :: text) = false := by
  simp [startsWith, List.isPrefixOf, h]

theorem isFileStart_cons (hc : c ≠ 100) : isFileStart (c :: text) = false := by
  have hword : lit "diff --git " = 100 :: (lit "diff --git ").tail := rfl
  rw [isFileStart, hword]
  exact startsWith_cons_ne hc.symm

theorem startsWith_at_cons (hc : c ≠ 64) : startsWith (lit "@@") (c :: text) = false := by
  have hword : lit "@@" = 64 :: (lit "@@").tail := rfl
  rw [hword]
  exact startsWith_cons_ne hc.symm

theorem isHunkHeader_cons (hc : c ≠ 64) : isHunkHeader (c :: text) = false := by
  by_contra hheader
  have hstart := isHunkHeader_starts (by simpa using hheader)
  rw [startsWith_at_cons hc] at hstart
  cases hstart

theorem mark_ne (status : LineStatus) : status.mark ≠ 100 ∧ status.mark ≠ 64 ∧ status.mark ≠ newline := by cases status <;> decide

theorem mark_inj (s t : LineStatus) : s.mark = t.mark ↔ s = t := by cases s <;> cases t <;> decide

theorem startsWith_mark (c : CodeUnit) (l : GitDiffLine) : startsWith [c] (render l) = decide (l.status.mark = c) := by
  by_cases h : c = l.status.mark
  · simp [startsWith, render, List.isPrefixOf, h]
  · simp [startsWith, render, List.isPrefixOf, h, Ne.symm h]

theorem bodyLine_render (hunk : GitHunk) (l : GitDiffLine) : bodyLine hunk (render l) = some { hunk with lines := hunk.lines ++ [l] } := by
  obtain ⟨status, text⟩ := l
  cases status <;> rfl

theorem readBody_render : ∀ (lines : List GitDiffLine) (hunk : GitHunk) (rest : List Text),
    readBody hunk (lines.map render ++ rest) = readBody { hunk with lines := hunk.lines ++ lines } rest
  | [], hunk, rest => by simp
  | l :: lines, hunk, rest => by
    have hstart : startsWith (lit "@@") (render l) = false := startsWith_at_cons (mark_ne l.status).2.1
    rw [List.map_cons, List.cons_append, readBody, hstart, bodyLine_render]
    simp only [Bool.false_eq_true, if_false]
    rw [readBody_render lines]
    simp

/-- What a hunk has read stands in its lines. -/
theorem mem_readBody : ∀ (rest : List Text) (hunk : GitHunk), ∀ l ∈ (readBody hunk rest).lines, l ∈ hunk.lines ∨ render l ∈ rest
  | [], _, l, hl => .inl hl
  | line :: rest, hunk, l, hl => by
    rw [readBody] at hl
    split at hl
    · exact .inl hl
    · split at hl
      · rename_i next hbody
        rcases mem_readBody rest next l hl with hnext | hrest
        · have hcases : l ∈ hunk.lines ∨ render l = line := by
            unfold bodyLine at hbody
            split at hbody
            · cases hbody
              exact .inl hnext
            · rename_i c text
              repeat' split at hbody
              all_goals first
                | cases hbody; done
                | (cases hbody
                   simp only [List.mem_append, List.mem_singleton] at hnext
                   rcases hnext with hnext | rfl
                   · exact .inl hnext
                   · right; simp_all [render])
                | (cases hbody; exact .inl hnext)
          rcases hcases with h | h
          · exact .inl h
          · exact .inr (by rw [h]; exact List.mem_cons_self)
        · exact .inr (List.mem_cons_of_mem line hrest)
      · exact .inl hl

theorem readBody_header : ∀ (rest : List Text) (hunk : GitHunk),
    (readBody hunk rest).header = hunk.header ∧ (readBody hunk rest).range = hunk.range
  | [], _ => ⟨rfl, rfl⟩
  | line :: rest, hunk => by
    rw [readBody]
    split
    · exact ⟨rfl, rfl⟩
    · split
      · rename_i next hbody
        obtain ⟨hheader, hrange⟩ := readBody_header rest next
        have hsame : next.header = hunk.header ∧ next.range = hunk.range := by
          unfold bodyLine at hbody
          repeat' split at hbody
          all_goals cases hbody
          all_goals exact ⟨rfl, rfl⟩
        exact ⟨hheader.trans hsame.1, hrange.trans hsame.2⟩
      · exact ⟨rfl, rfl⟩

theorem behind_suffix (h : behind word s = some t) : t <:+ s := by
  unfold behind at h
  split at h
  · cases h
    exact List.drop_suffix _ s
  · cases h

theorem takeDigits_suffix : ∀ s : Text, (Json.takeDigits s).2 <:+ s
  | [] => List.suffix_refl _
  | c :: s => by
    rw [Json.takeDigits]
    split
    · exact List.suffix_refl _
    · exact (takeDigits_suffix s).trans (List.suffix_cons c s)

theorem number_suffix {r : ℕ × Text} (h : number s = some r) : r.2 <:+ s := by
  unfold number at h
  split at h
  · cases h
  · cases h
    exact takeDigits_suffix s

theorem count_suffix (s : Text) : (count s).2 <:+ s := by
  unfold count
  cases h : (behind (lit ",") s).bind number with
  | none => exact List.suffix_refl s
  | some r =>
    obtain ⟨t, ht, hr⟩ := Option.bind_eq_some_iff.1 h
    exact (number_suffix hr).trans (behind_suffix ht)

theorem spaces_suffix (h : spaces s = some t) : t <:+ s := by
  unfold spaces at h
  split at h
  · cases h
  · cases h
    exact List.dropWhile_suffix _

theorem headerSuffix_suffix (header : Text) : headerSuffix header <:+ header := by
  unfold headerSuffix
  cases h : behindHeader header with
  | none => exact List.suffix_refl header
  | some t =>
    simp only [behindHeader, Option.bind_eq_bind, Option.bind_eq_some_iff, Prod.exists] at h
    obtain ⟨a, ha, b, hb, c, hc, _, d, hd, e, he, f, hf, _, g, hg, i, hi, ht⟩ := h
    exact (behind_suffix ht).trans ((spaces_suffix hi).trans ((count_suffix g).trans ((number_suffix hg).trans
      ((behind_suffix hf).trans ((spaces_suffix he).trans ((count_suffix d).trans ((number_suffix hd).trans
      ((behind_suffix hc).trans ((spaces_suffix hb).trans (behind_suffix ha))))))))))

theorem newline_natText (n : ℕ) : newline ∉ natText n := by
  unfold natText
  split
  · decide
  · intro h
    obtain ⟨d, -, hd⟩ := List.mem_map.1 h
    have hval : 48 + d.val = 10 := congrArg Fin.val hd
    omega

theorem newline_patchHeader {range : HunkRange} {suffix : Text} (h : newline ∉ suffix) : newline ∉ patchHeader range suffix := by
  have hrange : ∀ start n, newline ∉ rangeText start n := by
    intro start n
    unfold rangeText
    have hcomma : newline ∉ lit "," := by decide
    split <;> simp [newline_natText, hcomma]
  have h1 : newline ∉ lit "@@ -" := by decide
  have h2 : newline ∉ lit " +" := by decide
  have h3 : newline ∉ lit " @@" := by decide
  simp [patchHeader, hrange, h, h1, h2, h3]

/-- What the extractor works on: the hunk of the index, of the first file under the path. -/
def Picked (raw filePath : Text) (hunkIndex : ℕ) (h : GitHunk) : Prop :=
  ∃ i file, (parseDiff raw).findIdx? (fun file => file.path = filePath) = some i ∧ (parseDiff raw)[i]? = some file ∧
    file.binary = false ∧ file.status ≠ .renamed ∧ file.status ≠ .untracked ∧ file.hunks[hunkIndex]? = some h ∧
    h.noNewlineAtEof = false

/-- One or more different lines, all of them added or removed. -/
structure Selection (h : GitHunk) (lineIndices : List ℕ) : Prop where
  nonempty : lineIndices ≠ []
  nodup : lineIndices.Nodup
  changed : ∀ i ∈ lineIndices, ∃ l, h.lines[i]? = some l ∧ l.status ≠ .context

theorem getElem?_filterMap {α β : Type*} {f : α → Option β} : ∀ (l : List α), (∀ x ∈ l, (f x).isSome = true) →
    ∀ k : ℕ, (l.filterMap f)[k]? = l[k]?.bind f
  | [], _, _ => by simp
  | x :: l, h, k => by
    obtain ⟨y, hy⟩ := Option.isSome_iff_exists.1 (h x List.mem_cons_self)
    have ih := getElem?_filterMap l (fun z hz => h z (List.mem_cons_of_mem x hz))
    rw [List.filterMap_cons_some hy]
    cases k with
    | zero => simp [hy]
    | succ k => simp [ih k]

/-- **A parsed hunk is a block of its section**: parser and extractor number files and hunks alike. -/
theorem section_of_hunk {i : ℕ} {file : GitDiffFile} (hfile : (parseDiff raw)[i]? = some file)
    (hhunk : file.hunks[hunkIndex]? = some h) :
    ∃ line rest header body range, (sections raw)[i]? = some (line :: rest) ∧ isFileStart line = true ∧
      (∀ l ∈ rest, isFileStart l = false) ∧ blocks isHunkHeader (line :: rest) = (line :: (blocks isHunkHeader rest).1, (blocks isHunkHeader rest).2) ∧
      (blocks isHunkHeader rest).2[hunkIndex]? = some (header :: body) ∧ parseHunkHeader header = some range ∧
      (∀ l ∈ header :: body, l ∈ rest) ∧ (∀ l ∈ body, isHunkHeader l = false) ∧ h = readBody ⟨header, range, [], false⟩ body ∧
      ∀ l ∈ line :: rest, newline ∉ l := by
  rw [parseDiff_sections, List.getElem?_map] at hfile
  obtain ⟨part, hpart, rfl⟩ := Option.map_eq_some_iff.1 hfile
  obtain ⟨line, rest, rfl, hline, hrest, hmem⟩ := mem_blocks _ part (List.mem_of_getElem? hpart)
  rw [readSection_hunks, getElem?_filterMap] at hhunk
  · obtain ⟨block, hblock, hread⟩ := Option.bind_eq_some_iff.1 hhunk
    obtain ⟨header, body, rfl, hheader, hbody, hsub⟩ := mem_blocks rest block (List.mem_of_getElem? hblock)
    obtain ⟨range, hrange, hopen⟩ := openHunk_some hheader
    have hnot : isHunkHeader line = false := by
      obtain ⟨t, rfl⟩ := List.isPrefixOf_iff_prefix.1 hline
      exact isHunkHeader_cons (by decide)
    refine ⟨line, rest, header, body, range, hpart, hline, hrest, by simp [blocks, hnot], hblock, hrange, hsub, hbody, ?_,
      fun l hl => not_mem_of_mem_splitOn raw l (hmem l hl)⟩
    rw [readHunk, hopen] at hread
    exact (Option.some.inj hread).symm
  · intro block hblock
    obtain ⟨header, body, rfl, hheader, -⟩ := mem_blocks rest block hblock
    obtain ⟨range, -, hopen⟩ := openHunk_some hheader
    simp [readHunk, hopen]

theorem length_side_render (drop : LineStatus) : ∀ lines : List GitDiffLine,
    ((lines.map render).filter (fun line => !startsWith [drop.mark] line)).length = (side drop lines).length
  | [] => rfl
  | l :: lines => by
    have ih := length_side_render drop lines
    rw [List.map_cons, side_cons, List.filter_cons, startsWith_mark]
    by_cases h : l.status = drop
    · simp [h, ih]
    · simp [h, mark_inj, ih]

/-- A selected line is in the patch as it is. -/
theorem mem_pick {direction : Direction} {selected : ℕ → Bool} {l : GitDiffLine} : ∀ (n i : ℕ) (lines : List GitDiffLine),
    lines[i]? = some l → selected (n + i) = true → l ∈ pick direction selected n lines
  | n, 0, m :: lines, hi, hs => by
    obtain rfl : m = l := by simpa using hi
    rw [pick_cons, pickLine]
    split <;> simp_all
  | n, i + 1, m :: lines, hi, hs => by
    rw [pick_cons]
    refine List.mem_append_right _ (mem_pick (n + 1) i lines (by simpa using hi) ?_)
    rwa [show n + 1 + i = n + (i + 1) by omega]

theorem text_pick {direction : Direction} {selected : ℕ → Bool} : ∀ (n : ℕ) (lines : List GitDiffLine),
    ∀ l ∈ pick direction selected n lines, ∃ m ∈ lines, l.text = m.text
  | _, [], l, hl => absurd hl List.not_mem_nil
  | n, m :: lines, l, hl => by
    rw [pick_cons] at hl
    rcases List.mem_append.1 hl with hl | hl
    · refine ⟨m, List.mem_cons_self, ?_⟩
      unfold pickLine at hl
      repeat' split at hl
      all_goals simp_all
    · obtain ⟨x, hx, htext⟩ := text_pick (n + 1) lines l hl
      exact ⟨x, List.mem_cons_of_mem m hx, htext⟩

theorem headerBlock_cons {line : Text} {rest : List Text} (hline : isFileStart line = true)
    (hblocks : blocks isHunkHeader (line :: rest) = (line :: (blocks isHunkHeader rest).1, (blocks isHunkHeader rest).2)) :
    ∃ before, headerBlock (line :: rest) = line :: before ∧ ∀ l ∈ before, l ∈ (blocks isHunkHeader rest).1 := by
  have hmode : isModeLine line = false := by
    obtain ⟨t, rfl⟩ := List.isPrefixOf_iff_prefix.1 hline
    have hold : startsWith (lit "old mode ") (lit "diff --git " ++ t) = false := startsWith_cons_ne (by decide)
    have hnew : startsWith (lit "new mode ") (lit "diff --git " ++ t) = false := startsWith_cons_ne (by decide)
    rw [isModeLine, hold, hnew, Bool.or_self]
  refine ⟨(blocks isHunkHeader rest).1.filter (fun line => !isModeLine line), ?_, fun l hl => (List.mem_filter.1 hl).1⟩
  rw [headerBlock, hblocks, List.filter_cons_of_pos (by simp [hmode])]

/-- A patch of one hunk whose header has the counts of the hunk's own lines. -/
def PatchOf (patch : Text) (k : GitHunk) : Prop :=
  ∃ file, parseDiff patch = [file] ∧ file.hunks = [k] ∧ k.range.oldCount = (oldSide k.lines).length ∧
    k.range.newCount = (newSide k.lines).length

/-- **The patch that is built**, read back: the picked lines under the hunk's own starts. -/
theorem extractSelectedLinePatch_picks {filePath : Text} {lineIndices : List ℕ}
    (hp : Picked raw filePath hunkIndex h) (hs : Selection h lineIndices) (direction : Direction) :
    ∃ patch k, extractSelectedLinePatch raw filePath hunkIndex lineIndices direction = some patch ∧ PatchOf patch k ∧
      k.lines = pick direction (fun i => decide (i ∈ lineIndices)) 0 h.lines ∧ k.range.oldStart = h.range.oldStart ∧
      k.range.newStart = h.range.newStart := by
  obtain ⟨i, file, hindex, hfile, hbinary, hrenamed, huntracked, hhunk, hend⟩ := hp
  obtain ⟨line, rest, header, body, range, hpart, hline, hrest, hblocks, hblock, hrange, hsub, hbody, hread, hbreaks⟩ :=
    section_of_hunk hfile hhunk
  obtain ⟨picked, hpicked⟩ : ∃ picked, picked = pick direction (fun i => decide (i ∈ lineIndices)) 0 h.lines := ⟨_, rfl⟩
  have hlines : ∀ l ∈ h.lines, newline ∉ l.text := by
    intro l hl
    rw [hread] at hl
    rcases mem_readBody body _ l hl with hl | hl
    · exact absurd hl List.not_mem_nil
    · have hbreak := hbreaks _ (List.mem_cons_of_mem line (hsub _ (List.mem_cons_of_mem header hl)))
      exact fun hin => hbreak (List.mem_cons_of_mem _ hin)
  have hrendered : ∀ l ∈ picked.map render, isFileStart l = false ∧ isHunkHeader l = false ∧ newline ∉ l := by
    intro l hl
    obtain ⟨m, hm, rfl⟩ := List.mem_map.1 hl
    obtain ⟨x, hx, htext⟩ := text_pick 0 h.lines m (hpicked ▸ hm)
    obtain ⟨h1, h2, h3⟩ := mark_ne m.status
    refine ⟨isFileStart_cons h1, isHunkHeader_cons h2, fun hin => ?_⟩
    rcases List.mem_cons.1 hin with heq | hin
    · exact h3 heq.symm
    · exact hlines x hx (htext ▸ hin)
  have hheaderText : newline ∉ headerSuffix h.header := by
    have hsame : h.header = header := by rw [hread]; exact (readBody_header body _).1
    rw [hsame]
    exact fun hin => hbreaks header (List.mem_cons_of_mem line (hsub header List.mem_cons_self))
      ((headerSuffix_suffix header).subset hin)
  obtain ⟨before, hbefore, hhb⟩ := headerBlock_cons hline hblocks
  have holdCount := length_side_render .added picked
  have hnewCount := length_side_render .removed picked
  have hplus : (lit "+" : Text) = [LineStatus.added.mark] := rfl
  have hminus : (lit "-" : Text) = [LineStatus.removed.mark] := rfl
  have hsome : (picked.map render).any (fun line => startsWith (lit "+") line || startsWith (lit "-") line) = true := by
    obtain ⟨j, hj⟩ := List.exists_mem_of_ne_nil _ hs.nonempty
    obtain ⟨l, hl, hchanged⟩ := hs.changed j hj
    have hmem : l ∈ picked := hpicked ▸ mem_pick 0 j h.lines hl (by simpa using hj)
    refine List.any_eq_true.2 ⟨render l, List.mem_map.2 ⟨l, hmem, rfl⟩, ?_⟩
    rw [hplus, hminus, startsWith_mark, startsWith_mark, Bool.or_eq_true, decide_eq_true_iff, decide_eq_true_iff, mark_inj, mark_inj]
    cases hstatus : l.status with
    | context => exact absurd hstatus hchanged
    | added => exact .inl rfl
    | removed => exact .inr rfl
  have hindices : lineIndices.any (fun i => (h.lines[i]?).all (fun l => l.status = .context)) = false := by
    refine List.any_eq_false.2 (fun j hj => ?_)
    obtain ⟨l, hl, hchanged⟩ := hs.changed j hj
    simp [hl, hchanged]
  have hcount : ¬(blocks isHunkHeader (line :: rest)).2.length ≤ hunkIndex := by
    obtain ⟨hlt, -⟩ := List.getElem?_eq_some_iff.1 hblock
    rw [hblocks]
    exact Nat.not_le.2 hlt
  obtain ⟨r, hr⟩ : ∃ r : HunkRange, r = ⟨h.range.oldStart, (oldSide picked).length, h.range.newStart, (newSide picked).length⟩ := ⟨_, rfl⟩
  have hextract : extractSelectedLinePatch raw filePath hunkIndex lineIndices direction =
      some (joinLines (line :: before ++ patchHeader r (headerSuffix h.header) :: picked.map render)) := by
    rw [extractSelectedLinePatch, if_neg (by simp [hs.nonempty, hs.nodup])]
    simp only [hindex, hfile, hhunk, hpart, Option.bind_eq_bind, Option.bind_some, hbinary, hrenamed, huntracked, hend,
      hindices, hcount, Bool.false_eq_true, or_self, if_false, ← hpicked, hsome, Bool.not_true, hbefore]
    rw [hplus, hminus, holdCount, hnewCount, hr]
    rfl
  have hone := parseDiff_one before (picked.map render) hline
    (parseHunkHeader_patchHeader r (headerSuffix h.header)) (isFileStart_cons (by decide))
    (fun l hl => ⟨hrest l (mem_before rest l (hhb l hl)), before_not rest l (hhb l hl)⟩)
    (fun l hl => ⟨(hrendered l hl).1, (hrendered l hl).2.1⟩) (fun l hl => by
      rcases List.mem_append.1 hl with hl | hl
      · rcases List.mem_cons.1 hl with rfl | hl
        · exact hbreaks l List.mem_cons_self
        · exact hbreaks l (List.mem_cons_of_mem line (mem_before rest l (hhb l hl)))
      · rcases List.mem_cons.1 hl with rfl | hl
        · exact newline_patchHeader hheaderText
        · exact (hrendered l hl).2.2)
  obtain ⟨patched, hparse, hhunks⟩ := hone
  rw [readBody_render] at hhunks
  have hk : readBody { header := patchHeader r (headerSuffix h.header), range := r, lines := [] ++ picked, noNewlineAtEof := false }
      [[]] = ⟨patchHeader r (headerSuffix h.header), r, picked, false⟩ := rfl
  rw [hk] at hhunks
  exact ⟨_, _, hextract, ⟨patched, hparse, hhunks, by rw [hr], by rw [hr]⟩, hpicked, by rw [hr], by rw [hr]⟩

/-- Where a side stands: a start of 0 or one without lines counts the lines before it. -/
def place (start count : ℕ) : ℕ := if count = 0 then start else start - 1

/-- A side of a hunk stands in a text at the place of its start. -/
structure Stands (lines : List Text) (start : ℕ) (before after text : List Text) : Prop where
  text_eq : text = before ++ lines ++ after
  at_place : place start lines.length = before.length

/-- What is left to stage in `h`: selected are the changed lines at the place of a hunk staged before. -/
def Remaining (before middle after target : List Text) (h : GitHunk) (lineIndices : List ℕ) : Prop :=
  ∃ p r q above below : List GitDiffLine, oldSide p = before ∧ oldSide r = middle ∧ newSide r = target ∧ oldSide q = after ∧
    p ++ r ++ q = above ++ h.lines ++ below ∧ place h.range.oldStart (oldSide h.lines).length = (oldSide above).length ∧
    ∀ j l, (p ++ r ++ q)[j]? = some l → l.status ≠ .context →
      ((p.length ≤ j ∧ j < p.length + r.length) ↔ above.length ≤ j ∧ j - above.length ∈ lineIndices)

section

variable {raw filePath : Text} {hunkIndex : ℕ} {h : GitHunk} {lineIndices : List ℕ}

theorem stage_takes (hp : Picked raw filePath hunkIndex h) (hs : Selection h lineIndices) :
    ∃ patch k, extractSelectedLinePatch raw filePath hunkIndex lineIndices .stage = some patch ∧ PatchOf patch k ∧
      ∀ before after old, Stands (oldSide h.lines) h.range.oldStart before after old →
        applyAt (place k.range.oldStart k.range.oldCount) k.lines old =
          some (before ++ taken (fun i => decide (i ∈ lineIndices)) 0 h.lines ++ after) := by
  obtain ⟨patch, k, hextract, hpatch, hlines, hstart, -⟩ := extractSelectedLinePatch_picks hp hs .stage
  obtain ⟨hold, hnew, -, -⟩ := side_pick (fun i => decide (i ∈ lineIndices)) 0 h.lines
  refine ⟨patch, k, hextract, hpatch, fun before after old hstands => ?_⟩
  obtain ⟨-, -, -, hcount, -⟩ := hpatch
  have hplace := applyAt_place before after k.lines
  rw [hcount, hstart, hlines, hold, hstands.at_place, hstands.text_eq]
  rwa [hlines, hold, hnew] at hplace

theorem unstage_takes (hp : Picked raw filePath hunkIndex h) (hs : Selection h lineIndices) :
    ∃ patch k, extractSelectedLinePatch raw filePath hunkIndex lineIndices .unstage = some patch ∧ PatchOf patch k ∧
      ∀ before after new, Stands (newSide h.lines) h.range.newStart before after new →
        applyAt (place k.range.newStart k.range.newCount) (reversed k.lines) new =
          some (before ++ taken (fun i => !decide (i ∈ lineIndices)) 0 h.lines ++ after) := by
  obtain ⟨patch, k, hextract, hpatch, hlines, -, hstart⟩ := extractSelectedLinePatch_picks hp hs .unstage
  obtain ⟨-, -, hnew, hold⟩ := side_pick (fun i => decide (i ∈ lineIndices)) 0 h.lines
  refine ⟨patch, k, hextract, hpatch, fun before after new hstands => ?_⟩
  obtain ⟨-, -, -, -, hcount⟩ := hpatch
  have hplace := applyAt_reversed before after k.lines
  rw [hcount, hstart, hlines, hnew, hstands.at_place, hstands.text_eq]
  rwa [hlines, hold, hnew] at hplace

/-- What was selected in one part of a diff, seen in the whole of it. -/
theorem remaining_target {before middle after target : List Text} (hs : Selection h lineIndices)
    (hr : Remaining before middle after target h lineIndices) :
    ∃ above below, Stands (oldSide h.lines) h.range.oldStart above below (before ++ middle ++ after) ∧
      above ++ taken (fun i => decide (i ∈ lineIndices)) 0 h.lines ++ below = before ++ target ++ after := by
  obtain ⟨p, r, q, above, below, rfl, rfl, rfl, rfl, hwhole, hplace, hselected⟩ := hr
  have hsides : ∀ x y z : List GitDiffLine, oldSide (x ++ y ++ z) = oldSide x ++ oldSide y ++ oldSide z := fun x y z => by
    unfold oldSide
    rw [side_append, side_append]
  refine ⟨oldSide above, oldSide below, ⟨?_, hplace⟩, ?_⟩
  · rw [← hsides, hwhole, hsides]
  -- the lines taken of the whole diff, counted from either cut of it
  obtain ⟨chosen, hchosen⟩ : ∃ chosen : ℕ → Bool, chosen = fun j => decide (above.length ≤ j ∧ j - above.length ∈ lineIndices) := ⟨_, rfl⟩
  have habove : taken chosen 0 above = oldSide above := (taken_all 0 above).1 (fun i l hi _ => by
    obtain ⟨hlt, -⟩ := List.getElem?_eq_some_iff.1 hi
    rw [hchosen, decide_eq_false_iff_not]
    omega)
  have hmiddle : taken chosen (0 + above.length) h.lines = taken (fun i => decide (i ∈ lineIndices)) 0 h.lines :=
    taken_congr (0 + above.length) h.lines (fun i l _ _ => by
      rw [hchosen]
      simp)
  have hbelow : taken chosen (0 + (above ++ h.lines).length) below = oldSide below := (taken_all _ below).1 (fun i l _ _ => by
    rw [hchosen, decide_eq_false_iff_not]
    rintro ⟨-, hin⟩
    obtain ⟨m, hm, -⟩ := hs.changed _ hin
    obtain ⟨hlt, -⟩ := List.getElem?_eq_some_iff.1 hm
    rw [List.length_append] at hlt
    omega)
  have hat : ∀ i j l, (p ++ r ++ q)[j]? = some l → l.status ≠ .context → j = i →
      (chosen i = true ↔ p.length ≤ i ∧ i < p.length + r.length) := by
    rintro i j l hj hl rfl
    rw [hchosen, decide_eq_true_iff]
    exact (hselected j l hj hl).symm
  have hp : taken chosen 0 p = oldSide p := (taken_all 0 p).1 (fun i l hi hl => by
    obtain ⟨hlt, -⟩ := List.getElem?_eq_some_iff.1 hi
    have hiff := hat (0 + i) i l (by rw [List.append_assoc, List.getElem?_append_left hlt]; exact hi) hl (by omega)
    exact Bool.eq_false_iff.2 (fun hc => by have := (hiff.1 hc).1; omega))
  have hr : taken chosen (0 + p.length) r = newSide r := (taken_all _ r).2 (fun i l hi hl => by
    obtain ⟨hlt, -⟩ := List.getElem?_eq_some_iff.1 hi
    have hiff := hat (0 + p.length + i) (p.length + i) l (by
      rw [List.append_assoc, List.getElem?_append_right (by omega), List.getElem?_append_left (by omega)]
      rwa [Nat.add_sub_cancel_left]) hl (by omega)
    exact hiff.2 (by omega))
  have hq : taken chosen (0 + (p ++ r).length) q = oldSide q := (taken_all _ q).1 (fun i l hi hl => by
    have hiff := hat (0 + (p ++ r).length + i) ((p ++ r).length + i) l (by
      rw [List.getElem?_append_right (by omega)]
      rwa [Nat.add_sub_cancel_left]) hl (by omega)
    refine Bool.eq_false_iff.2 (fun hc => ?_)
    have hlt := (hiff.1 hc).2
    rw [List.length_append] at hlt
    omega)
  calc oldSide above ++ taken (fun i => decide (i ∈ lineIndices)) 0 h.lines ++ oldSide below
      = taken chosen 0 (above ++ h.lines ++ below) := by rw [taken_append, taken_append, habove, hmiddle, hbelow]
    _ = taken chosen 0 (p ++ r ++ q) := by rw [hwhole]
    _ = oldSide p ++ newSide r ++ oldSide q := by rw [taken_append, taken_append, hp, hr, hq]

/-- **Line staging moves exactly the selected lines**, also the rest of a hunk when the diff is read again. -/
theorem line_staging (hp : Picked raw filePath hunkIndex h) (hs : Selection h lineIndices) :
    (∃ patch k, extractSelectedLinePatch raw filePath hunkIndex lineIndices .stage = some patch ∧ PatchOf patch k ∧
      ∀ before after old, Stands (oldSide h.lines) h.range.oldStart before after old →
        applyAt (place k.range.oldStart k.range.oldCount) k.lines old =
          some (before ++ taken (fun i => decide (i ∈ lineIndices)) 0 h.lines ++ after)) ∧
    (∃ patch k, extractSelectedLinePatch raw filePath hunkIndex lineIndices .unstage = some patch ∧ PatchOf patch k ∧
      ∀ before after new, Stands (newSide h.lines) h.range.newStart before after new →
        applyAt (place k.range.newStart k.range.newCount) (reversed k.lines) new =
          some (before ++ taken (fun i => !decide (i ∈ lineIndices)) 0 h.lines ++ after)) ∧
    ((∀ i l, h.lines[i]? = some l → l.status ≠ .context → i ∈ lineIndices) →
      taken (fun i => decide (i ∈ lineIndices)) 0 h.lines = newSide h.lines ∧
        taken (fun i => !decide (i ∈ lineIndices)) 0 h.lines = oldSide h.lines) ∧
    ∀ {raw' filePath' : Text} {hunkIndex' : ℕ} {h' : GitHunk} {rest : List ℕ}, Picked raw' filePath' hunkIndex' h' →
      Selection h' rest → ∀ before middle after, Remaining before middle after (newSide h.lines) h' rest →
        ∃ patch k, extractSelectedLinePatch raw' filePath' hunkIndex' rest .stage = some patch ∧ PatchOf patch k ∧
          applyAt (place k.range.oldStart k.range.oldCount) k.lines (before ++ middle ++ after) =
            some (before ++ newSide h.lines ++ after) := by
  refine ⟨stage_takes hp hs, unstage_takes hp hs, fun hevery => ⟨?_, ?_⟩, ?_⟩
  · exact (taken_all 0 h.lines).2 (fun i l hi hl => by simpa using hevery i l hi hl)
  · exact (taken_all 0 h.lines).1 (fun i l hi hl => by simpa using hevery i l hi hl)
  · intro raw' filePath' hunkIndex' h' rest hp' hs' before middle after hr
    obtain ⟨patch, k, hextract, hpatch, happly⟩ := stage_takes hp' hs'
    obtain ⟨above, below, hstands, htarget⟩ := remaining_target hs' hr
    exact ⟨patch, k, hextract, hpatch, by rw [happly above below _ hstands, htarget]⟩

end

def sampleDiff : Text := lit "diff --git a/f b/f\n--- a/f\n+++ b/f\n@@ -1,2 +1,2 @@\n-a\n+b\n c\n"

def sampleHunk : GitHunk := ⟨lit "@@ -1,2 +1,2 @@", ⟨1, 2, 1, 2⟩, [⟨.removed, lit "a"⟩, ⟨.added, lit "b"⟩, ⟨.context, lit "c"⟩], false⟩

theorem picked_sample : Picked sampleDiff (lit "f") 0 sampleHunk :=
  ⟨0, ⟨lit "f", none, .modified, false, [sampleHunk]⟩, by decide +kernel, by decide +kernel, rfl, by decide, by decide, rfl, rfl⟩

theorem line_staging_sample : ∃ patch k, extractSelectedLinePatch sampleDiff (lit "f") 0 [1] .stage = some patch ∧ PatchOf patch k ∧
    applyAt (place k.range.oldStart k.range.oldCount) k.lines [lit "a", lit "c"] = some [lit "a", lit "b", lit "c"] := by
  have hs : Selection sampleHunk [1] := ⟨by decide, by decide, fun i hi => by
    rw [List.mem_singleton.1 hi]
    exact ⟨⟨.added, lit "b"⟩, rfl, by decide⟩⟩
  obtain ⟨⟨patch, k, hextract, hpatch, happly⟩, -⟩ := line_staging picked_sample hs
  exact ⟨patch, k, hextract, hpatch, happly [] [] [lit "a", lit "c"] ⟨rfl, rfl⟩⟩

end Wollipog.Patches

import Wollipog.Lib.Blocks
import Wollipog.Scope.Grant
/-!
# Parse — git's unified diff read into files and hunks

`parseDiff` goes through the lines once. What it makes of a file is what the lines of that file's section say, and its
hunks are the blocks of the section, each read alone.
-/
namespace Wollipog.Patches

open Json (Text CodeUnit takeDigits natValue digitUnits)
open Reviews (lit natText)
open Scope (isSpaceUnit trimText)
open Blocks

/-- `' '`, `'+'` and `'-'` -/
inductive LineStatus
  | context
  | added
  | removed
  deriving DecidableEq

def LineStatus.mark : LineStatus → CodeUnit
  | .context => 32
  | .added => 43
  | .removed => 45

structure GitDiffLine where
  status : LineStatus
  text : Text
  deriving DecidableEq

/-- The numbers of a hunk header.  `Number` is exact on every line number git writes. -/
structure HunkRange where
  oldStart : ℕ
  oldCount : ℕ
  newStart : ℕ
  newCount : ℕ
  deriving DecidableEq

structure GitHunk where
  header : Text
  range : HunkRange
  lines : List GitDiffLine
  noNewlineAtEof : Bool
  deriving DecidableEq

inductive FileStatus
  | modified
  | added
  | deleted
  | renamed
  | untracked
  deriving DecidableEq

structure GitDiffFile where
  path : Text
  oldPath : Option Text
  status : FileStatus
  binary : Bool
  hunks : List GitHunk
  deriving DecidableEq

def startsWith (word line : Text) : Bool := word.isPrefixOf line

def behind (word line : Text) : Option Text := if startsWith word line then some (line.drop word.length) else none

/-- `(\d+)` -/
def number (s : Text) : Option (ℕ × Text) := if (takeDigits s).1 = [] then none else some (natValue (takeDigits s).1, (takeDigits s).2)

/-- `(?:,(\d+))?`, 1 when it is not there. -/
def count (s : Text) : ℕ × Text := ((behind (lit ",") s).bind number).getD (1, s)

/-- `/^@@ -(\d+)(?:,(\d+))? \+(\d+)(?:,(\d+))? @@/` -/
def parseHunkHeader (line : Text) : Option HunkRange := do
  let s ← behind (lit "@@ -") line
  let (oldStart, s) ← number s
  let (oldCount, s) := count s
  let s ← behind (lit " +") s
  let (newStart, s) ← number s
  let (newCount, s) := count s
  if startsWith (lit " @@") s then some ⟨oldStart, oldCount, newStart, newCount⟩ else none

def stripDiffPrefix (p : Text) : Text :=
  if p = lit "/dev/null" then p
  else if startsWith (lit "a/") p || startsWith (lit "b/") p then p.drop 2 else p

/-- What `.` does not match. -/
def isBreakUnit (c : CodeUnit) : Bool := c.val == 10 || c.val == 13 || c.val == 0x2028 || c.val == 0x2029

/-- The second group of `(.+) b\/(.+)$`, after a first group that is as long as it can be. -/
def lastSide : Text → Option Text
  | [] => none
  | _ :: s =>
    match lastSide s with
    | some path => some path
    | none => (behind (lit " b/") s).bind (fun path => if path = [] then none else some path)

/-- `/^diff --git a\/(.+) b\/(.+)$/`, else what follows `diff --git `. -/
def headerPath (line : Text) : Text :=
  ((behind (lit "diff --git a/") line).bind (fun s => if s.any isBreakUnit then none else lastSide s)).getD (line.drop 11)

/-! ## The parser -/

structure Parser where
  files : List GitDiffFile
  file : Option GitDiffFile
  hunk : Option GitHunk

def pushHunk (file : GitDiffFile) (hunk : Option GitHunk) : GitDiffFile := { file with hunks := file.hunks ++ hunk.toList }

def isFileStart (line : Text) : Bool := startsWith (lit "diff --git ") line

def isHunkHeader (line : Text) : Bool := (parseHunkHeader line).isSome

def openHunk (line : Text) : Option GitHunk := (parseHunkHeader line).map (fun range => ⟨line, range, [], false⟩)

/-- A line of an open hunk; none closes it. -/
def bodyLine (hunk : GitHunk) (line : Text) : Option GitHunk :=
  match line with
  | [] => some hunk
  | c :: text =>
    if c = LineStatus.added.mark then some { hunk with lines := hunk.lines ++ [⟨.added, text⟩] }
    else if c = LineStatus.removed.mark then some { hunk with lines := hunk.lines ++ [⟨.removed, text⟩] }
    else if c = LineStatus.context.mark then some { hunk with lines := hunk.lines ++ [⟨.context, text⟩] }
    else if startsWith (lit "\\") line then some { hunk with noNewlineAtEof := true }
    else none

/-- A line between the start of a file and its first hunk. -/
def headerLine (file : GitDiffFile) (line : Text) : GitDiffFile :=
  if startsWith (lit "new file mode") line then { file with status := .added }
  else if startsWith (lit "deleted file mode") line then { file with status := .deleted }
  else if startsWith (lit "rename from ") line then { file with status := .renamed, oldPath := some (line.drop 12) }
  else if startsWith (lit "copy from ") line then { file with status := .renamed, oldPath := some (line.drop 10) }
  else if startsWith (lit "rename to ") line then { file with status := .renamed, path := line.drop 10 }
  else if startsWith (lit "copy to ") line then { file with status := .renamed, path := line.drop 8 }
  else if startsWith (lit "Binary files ") line || startsWith (lit "GIT binary patch") line then { file with binary := true }
  else if startsWith (lit "--- ") line then
    let p := stripDiffPrefix (trimText (line.drop 4))
    if p = lit "/dev/null" then file else { file with oldPath := file.oldPath.or (some p) }
  else if startsWith (lit "+++ ") line then
    let p := stripDiffPrefix (trimText (line.drop 4))
    if p = lit "/dev/null" then file else { file with path := p }
  else file

/-- A line of a file after its first one. -/
def fileLine (s : GitDiffFile × Option GitHunk) (line : Text) : GitDiffFile × Option GitHunk :=
  if startsWith (lit "@@") line then (pushHunk s.1 s.2, openHunk line)
  else match s.2 with
    | some hunk =>
      match bodyLine hunk line with
      | some hunk => (s.1, some hunk)
      | none => (pushHunk s.1 (some hunk), none)
    | none => (headerLine s.1 line, none)

def closeFile (p : Parser) : List GitDiffFile := p.files ++ (p.file.map (fun file => pushHunk file p.hunk)).toList

def newFile (line : Text) : GitDiffFile := ⟨headerPath line, none, .modified, false, []⟩

def parseLine (p : Parser) (line : Text) : Parser :=
  if isFileStart line then ⟨closeFile p, some (newFile line), none⟩
  else match p.file with
    | none => p
    | some file => let s := fileLine (file, p.hunk) line; { p with file := some s.1, hunk := s.2 }

/-- A redundant old path is dropped. -/
def cleanFile (file : GitDiffFile) : GitDiffFile :=
  if file.status ≠ .renamed ∧ file.oldPath = some file.path then { file with oldPath := none } else file

def newline : CodeUnit := 10

def parseDiff (raw : Text) : List GitDiffFile :=
  (closeFile ((raw.splitOn newline).foldl parseLine ⟨[], none, none⟩)).map cleanFile

/-- The sections of the files: from each `diff --git ` line up to the next. -/
def sections (raw : Text) : List (List Text) := (blocks isFileStart (raw.splitOn newline)).2

/-- What a section says of its file. -/
def readSection : List Text → GitDiffFile
  | [] => newFile []
  | line :: rest => cleanFile (let s := rest.foldl fileLine (newFile line, none); pushHunk s.1 s.2)

theorem parseLine_rest : ∀ (rest : List Text), (∀ line ∈ rest, isFileStart line = false) →
    ∀ (files : List GitDiffFile) (file : GitDiffFile) (hunk : Option GitHunk),
      rest.foldl parseLine ⟨files, some file, hunk⟩ =
        ⟨files, some (rest.foldl fileLine (file, hunk)).1, (rest.foldl fileLine (file, hunk)).2⟩
  | [], _, _, _, _ => rfl
  | line :: rest, h, files, file, hunk => by
    have hline : isFileStart line = false := h line List.mem_cons_self
    rw [List.foldl_cons, List.foldl_cons]
    have hstep : parseLine ⟨files, some file, hunk⟩ line =
        ⟨files, some (fileLine (file, hunk) line).1, (fileLine (file, hunk) line).2⟩ := by simp [parseLine, hline]
    rw [hstep, parseLine_rest rest (fun l hl => h l (List.mem_cons_of_mem line hl))]

theorem parseLine_blocks : ∀ (lines : List Text) (p : Parser), closeFile (lines.foldl parseLine p) =
      closeFile ((blocks isFileStart lines).1.foldl parseLine p) ++
        (blocks isFileStart lines).2.map (fun part => match part with
          | [] => newFile []
          | line :: rest => let s := rest.foldl fileLine (newFile line, none); pushHunk s.1 s.2)
  | [], p => by simp [blocks]
  | line :: lines, p => by
    rw [List.foldl_cons, parseLine_blocks lines]
    by_cases hline : isFileStart line = true
    · have hbefore := parseLine_rest _ (before_not (p := isFileStart) lines) (closeFile p) (newFile line) none
      have hstart : parseLine p line = ⟨closeFile p, some (newFile line), none⟩ := if_pos hline
      rw [hstart, hbefore]
      simp [blocks, hline, closeFile]
    · simp [blocks, hline]

/-- **The files are those of the sections**, in order. -/
theorem parseDiff_sections (raw : Text) : parseDiff raw = (sections raw).map readSection := by
  have hbefore : ∀ (lines : List Text), (∀ line ∈ lines, isFileStart line = false) →
      lines.foldl parseLine ⟨[], none, none⟩ = ⟨[], none, none⟩ := by
    intro lines
    induction lines with
    | nil => intro _; rfl
    | cons line lines ih =>
      intro h
      have hline : isFileStart line = false := h line List.mem_cons_self
      rw [List.foldl_cons, show parseLine ⟨[], none, none⟩ line = ⟨[], none, none⟩ by simp [parseLine, hline]]
      exact ih (fun l hl => h l (List.mem_cons_of_mem line hl))
  unfold parseDiff sections
  rw [parseLine_blocks, hbefore _ (before_not _), List.map_append, List.map_map]
  refine List.map_congr_left (fun part hpart => ?_)
  obtain ⟨line, rest, rfl, -⟩ := mem_blocks _ part hpart
  rfl

/-- The body of a hunk up to a line that closes it. -/
def readBody (hunk : GitHunk) : List Text → GitHunk
  | [] => hunk
  | line :: rest =>
    if startsWith (lit "@@") line then hunk
    else match bodyLine hunk line with
      | some hunk => readBody hunk rest
      | none => hunk

/-- A hunk from its header line and what follows it. -/
def readHunk : List Text → Option GitHunk
  | [] => none
  | line :: rest => (openHunk line).map (fun hunk => readBody hunk rest)

theorem headerLine_hunks (file : GitDiffFile) (line : Text) : (headerLine file line).hunks = file.hunks := by
  unfold headerLine
  dsimp only
  repeat' split
  all_goals rfl

theorem startsWith_drop {word m line : Text} (h : startsWith (word ++ m) line = true) : startsWith word line = true := by
  obtain ⟨t, rfl⟩ := List.isPrefixOf_iff_prefix.1 h
  exact List.isPrefixOf_iff_prefix.2 ⟨m ++ t, by rw [List.append_assoc]⟩

theorem isHunkHeader_starts {line : Text} (h : isHunkHeader line = true) : startsWith (lit "@@") line = true := by
  obtain ⟨range, hrange⟩ := Option.isSome_iff_exists.1 h
  obtain ⟨s, hs, -⟩ := Option.bind_eq_some_iff.1 hrange
  unfold behind at hs
  split at hs
  · rename_i hstart
    exact startsWith_drop (m := lit " -") hstart
  · cases hs

theorem openHunk_none {line : Text} (h : isHunkHeader line = false) : openHunk line = none := by
  simp only [isHunkHeader, Option.isSome_eq_false_iff, Option.isNone_iff_eq_none] at h
  simp [openHunk, h]

theorem openHunk_some {line : Text} (h : isHunkHeader line = true) : ∃ range, parseHunkHeader line = some range ∧
    openHunk line = some ⟨line, range, [], false⟩ := by
  obtain ⟨range, hrange⟩ := Option.isSome_iff_exists.1 h
  exact ⟨range, hrange, by simp [openHunk, hrange]⟩

/-- The hunks of what the parser holds after a file's lines: those of the file, and one for each block. -/
theorem fileLine_hunks : ∀ (lines : List Text) (file : GitDiffFile) (hunk : Option GitHunk),
    (let s := lines.foldl fileLine (file, hunk); pushHunk s.1 s.2).hunks =
      file.hunks ++ (hunk.map (fun hunk => readBody hunk (blocks isHunkHeader lines).1)).toList ++
        (blocks isHunkHeader lines).2.filterMap readHunk
  | [], file, hunk => by cases hunk <;> simp [blocks, pushHunk, readBody]
  | line :: lines, file, hunk => by
    rw [List.foldl_cons]
    by_cases hheader : isHunkHeader line = true
    · have hstart := isHunkHeader_starts hheader
      obtain ⟨range, -, hopen⟩ := openHunk_some hheader
      have hstep : fileLine (file, hunk) line = (pushHunk file hunk, openHunk line) := if_pos hstart
      rw [hstep, fileLine_hunks lines]
      cases hunk <;> simp [blocks, hheader, hopen, readHunk, readBody, pushHunk]
    · have hno : isHunkHeader line = false := by simpa using hheader
      by_cases hstart : startsWith (lit "@@") line = true
      · have hstep : fileLine (file, hunk) line = (pushHunk file hunk, none) := by
          rw [fileLine, if_pos hstart, openHunk_none hno]
        rw [hstep, fileLine_hunks lines]
        cases hunk <;> simp [blocks, hno, readBody, hstart, pushHunk]
      · cases hunk with
        | none =>
          have hstep : fileLine (file, none) line = (headerLine file line, none) := if_neg hstart
          rw [hstep, fileLine_hunks lines]
          simp [blocks, hno, headerLine_hunks]
        | some hunk =>
          cases hbody : bodyLine hunk line with
          | none =>
            have hstep : fileLine (file, some hunk) line = (pushHunk file (some hunk), none) := by
              simp [fileLine, hstart, hbody]
            rw [hstep, fileLine_hunks lines]
            simp [blocks, hno, readBody, hstart, hbody, pushHunk]
          | some hunk' =>
            have hstep : fileLine (file, some hunk) line = (file, some hunk') := by simp [fileLine, hstart, hbody]
            rw [hstep, fileLine_hunks lines]
            simp [blocks, hno, readBody, hstart, hbody]

/-- **The hunks of a section are its blocks**, each read alone. -/
theorem readSection_hunks (line : Text) (rest : List Text) :
    (readSection (line :: rest)).hunks = (blocks isHunkHeader rest).2.filterMap readHunk := by
  have hclean : ∀ file : GitDiffFile, (cleanFile file).hunks = file.hunks := by
    intro file
    unfold cleanFile
    split <;> rfl
  have hfold := fileLine_hunks rest (newFile line) none
  simp only [newFile, Option.map_none, Option.toList_none, List.append_nil, List.nil_append] at hfold
  rw [readSection, hclean]
  exact hfold

end Wollipog.Patches

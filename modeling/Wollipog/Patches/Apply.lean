import Wollipog.Patches.Parse
/-!
# Apply — a hunk's lines put in the place of one side by the other

The old side of a list of lines is what a text has before, the new side what it has after.  `reversed` lines undo.
-/
namespace Wollipog.Patches

open Json (Text)

def side (drop : LineStatus) (lines : List GitDiffLine) : List Text := (lines.filter (fun l => l.status ≠ drop)).map GitDiffLine.text

def oldSide (lines : List GitDiffLine) : List Text := side .added lines

def newSide (lines : List GitDiffLine) : List Text := side .removed lines

def LineStatus.reversed : LineStatus → LineStatus
  | .context => .context
  | .added => .removed
  | .removed => .added

def GitDiffLine.reversed (l : GitDiffLine) : GitDiffLine := { l with status := l.status.reversed }

def reversed (lines : List GitDiffLine) : List GitDiffLine := lines.map GitDiffLine.reversed

/-- Puts the new side in the place of the old one, which must stand there. -/
def applyAt (place : ℕ) (lines : List GitDiffLine) (text : List Text) : Option (List Text) :=
  if (text.drop place).take (oldSide lines).length = oldSide lines ∧ place + (oldSide lines).length ≤ text.length then
    some (text.take place ++ newSide lines ++ text.drop (place + (oldSide lines).length))
  else none

section

variable {lines : List GitDiffLine} {drop : LineStatus}

@[simp] theorem side_nil : side drop [] = [] := rfl

theorem side_cons (l : GitDiffLine) (lines : List GitDiffLine) :
    side drop (l :: lines) = (if l.status = drop then [] else [l.text]) ++ side drop lines := by
  unfold side
  by_cases h : l.status = drop <;> simp [h]

theorem side_append (l m : List GitDiffLine) : side drop (l ++ m) = side drop l ++ side drop m := by
  simp [side]

theorem newSide_reversed (lines : List GitDiffLine) : newSide (reversed lines) = oldSide lines := by
  induction lines with
  | nil => rfl
  | cons l lines ih =>
    obtain ⟨status, text⟩ := l
    unfold newSide oldSide reversed at ih ⊢
    rw [List.map_cons, side_cons, side_cons, ih]
    cases status <;> rfl

theorem oldSide_reversed (lines : List GitDiffLine) : oldSide (reversed lines) = newSide lines := by
  induction lines with
  | nil => rfl
  | cons l lines ih =>
    obtain ⟨status, text⟩ := l
    unfold newSide oldSide reversed at ih ⊢
    rw [List.map_cons, side_cons, side_cons, ih]
    cases status <;> rfl

/-- **At a place where the old side stands**, the new side stands after. -/
theorem applyAt_place (before after : List Text) (lines : List GitDiffLine) :
    applyAt before.length lines (before ++ oldSide lines ++ after) = some (before ++ newSide lines ++ after) := by
  have htake : ((before ++ oldSide lines ++ after).drop before.length).take (oldSide lines).length = oldSide lines := by simp
  have hlength : before.length + (oldSide lines).length ≤ (before ++ oldSide lines ++ after).length := by simp
  rw [applyAt, if_pos ⟨htake, hlength⟩]
  simp [← List.drop_drop]

theorem applyAt_reversed (before after : List Text) (lines : List GitDiffLine) :
    applyAt before.length (reversed lines) (before ++ newSide lines ++ after) = some (before ++ oldSide lines ++ after) := by
  have h := applyAt_place before after (reversed lines)
  rwa [oldSide_reversed, newSide_reversed] at h

end

end Wollipog.Patches

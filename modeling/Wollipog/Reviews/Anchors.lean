import Wollipog.Lib.OrdMap
import Wollipog.Reviews.Contract
/-!
# Anchors — which findings are still attached to the diff on screen

A call derives the state of one lineage from its previous one, and keeps the store itself where nothing observable
moved.
-/
namespace Wollipog.Reviews

open Json (Text CodeUnit)

/-! ## Diffs -/

inductive GitDiffScope
  | uncommitted | allBranch | lastTurn
  deriving DecidableEq

inductive ReviewFindingSide
  | left | right
  deriving DecidableEq

inductive LineStatus
  | context | added | removed
  deriving DecidableEq

structure GitDiffLine where
  status : LineStatus
  text : Text

structure GitHunk where
  oldStart : ℕ
  newStart : ℕ
  lines : List GitDiffLine

structure GitDiffFile where
  path : Text
  hunks : List GitHunk

structure GitDiffInfo where
  scope : GitDiffScope
  files : List GitDiffFile
  diffHash : Text

structure ReviewFinding where
  findingId : Text
  scope : GitDiffScope
  diffHash : Text
  filePath : Text
  side : ReviewFindingSide
  line : ℕ
  anchorText : Option Text

def ReviewFindingSide.text : ReviewFindingSide → Text
  | .left => lit "left"
  | .right => lit "right"

def diffAnchorKey (filePath : Text) (side : ReviewFindingSide) (line : ℕ) : Text :=
  side.text ++ 0 :: natText line ++ 0 :: filePath

structure DiffHunkRow where
  status : LineStatus
  text : Text
  oldNo : Option ℕ
  side : ReviewFindingSide
  line : ℕ

def hunkRows : List GitDiffLine → ℕ → ℕ → List DiffHunkRow
  | [], _, _ => []
  | l :: lines, oldLine, newLine =>
    match l.status with
    | .added => ⟨.added, l.text, none, .right, newLine⟩ :: hunkRows lines oldLine (newLine + 1)
    | .removed => ⟨.removed, l.text, some oldLine, .left, oldLine⟩ :: hunkRows lines (oldLine + 1) newLine
    | .context => ⟨.context, l.text, some oldLine, .right, newLine⟩ :: hunkRows lines (oldLine + 1) (newLine + 1)

def buildDiffHunkRows (hunk : GitHunk) : List DiffHunkRow := hunkRows hunk.lines hunk.oldStart hunk.newStart

abbrev DiffAnchorIndex := OrdMap Text Text

def indexRow (path : Text) (index : DiffAnchorIndex) (row : DiffHunkRow) : DiffAnchorIndex :=
  let own := index.set (diffAnchorKey path row.side row.line) row.text
  if row.status = .context then own.set (diffAnchorKey path .left (row.oldNo.getD 0)) row.text else own

def buildDiffAnchorIndex (diff : GitDiffInfo) : DiffAnchorIndex :=
  diff.files.foldl (fun index file => file.hunks.foldl (fun index hunk =>
    (buildDiffHunkRows hunk).foldl (indexRow file.path) index) index) OrdMap.empty

/-! ## The verdict -/

structure FindingAnchorState where
  lineage : Text
  hash : Text
  index : DiffAnchorIndex
  anchored : Finset Text

def ReviewFinding.key (f : ReviewFinding) : Text := diffAnchorKey f.filePath f.side f.line

/-- The state carried from the last call, `none` across lineages. -/
def carried (previous : Option FindingAnchorState) (lineage : Text) : Option FindingAnchorState :=
  previous.filter (fun p => decide (p.lineage = lineage))

def reuses (previous : Option FindingAnchorState) (diff : GitDiffInfo) (lineage : Text) : Bool :=
  (carried previous lineage).any (fun p => decide (p.hash = diff.diffHash))

def indexFor (previous : Option FindingAnchorState) (diff : GitDiffInfo) (lineage : Text) : DiffAnchorIndex :=
  match carried previous lineage with
  | some p => if p.hash = diff.diffHash then p.index else buildDiffAnchorIndex diff
  | none => buildDiffAnchorIndex diff

def anchors (carry : Option FindingAnchorState) (index : DiffAnchorIndex) (diff : GitDiffInfo) (finding : ReviewFinding) : Bool :=
  if finding.diffHash = diff.diffHash then true
  else match index.get finding.key with
    | none => false
    | some now =>
      match finding.anchorText with
      | some text => decide (finding.scope = diff.scope) && decide (text = now)
      | none => carry.any (fun p => decide (finding.findingId ∈ p.anchored) && decide (p.index.get finding.key = some now))

def reanchorFindings (previous : Option FindingAnchorState) (diff : GitDiffInfo) (lineage : Text)
    (findings : List ReviewFinding) : FindingAnchorState where
  lineage := lineage
  hash := diff.diffHash
  index := indexFor previous diff lineage
  anchored := ((findings.filter (anchors (carried previous lineage) (indexFor previous diff lineage) diff)).map
    ReviewFinding.findingId).toFinset

abbrev FindingAnchorStore := OrdMap Text FindingAnchorState

def sameMembers (left right : Finset Text) : Bool :=
  decide (left.card = right.card) && decide (∀ m ∈ left, m ∈ right)

/-- `none` is the store itself. -/
def reanchorFindingStore (store : FindingAnchorStore) (diff : GitDiffInfo) (lineage : Text) (findings : List ReviewFinding) :
    Option FindingAnchorStore :=
  let next := reanchorFindings (store.get lineage) diff lineage findings
  if (store.get lineage).any (fun previous => decide (previous.hash = next.hash) && reuses (store.get lineage) diff lineage &&
      sameMembers previous.anchored next.anchored) then none
  else some (store.set lineage next)

structure Call where
  lineage : Text
  diff : GitDiffInfo
  findings : List ReviewFinding

def FindingAnchorStore.apply (store : FindingAnchorStore) (c : Call) : FindingAnchorStore :=
  (reanchorFindingStore store c.diff c.lineage c.findings).getD store

def FindingAnchorStore.run (calls : List Call) : FindingAnchorStore := calls.foldl FindingAnchorStore.apply OrdMap.empty

open FindingAnchorStore

section

variable {store : FindingAnchorStore} {previous : Option FindingAnchorState} {diff : GitDiffInfo} {lineage : Text}
  {findings : List ReviewFinding}

theorem sameMembers_iff {left right : Finset Text} : sameMembers left right = true ↔ left = right := by
  unfold sameMembers
  rw [Bool.and_eq_true, decide_eq_true_iff, decide_eq_true_iff]
  constructor
  · rintro ⟨hcard, hsub⟩
    exact Finset.eq_of_subset_of_card_le hsub hcard.ge
  · rintro rfl
    exact ⟨rfl, fun _ h => h⟩

theorem carried_eq_some {p : FindingAnchorState} : carried previous lineage = some p ↔ previous = some p ∧ p.lineage = lineage := by
  unfold carried
  rw [Option.filter_eq_some_iff, decide_eq_true_iff]

theorem reuses_iff : reuses previous diff lineage = true ↔
    ∃ p, previous = some p ∧ p.lineage = lineage ∧ p.hash = diff.diffHash := by
  unfold reuses
  rw [Option.any_eq_true]
  simp only [carried_eq_some, decide_eq_true_iff, and_assoc]

theorem indexFor_reused {p : FindingAnchorState} (hp : previous = some p) (hlineage : p.lineage = lineage)
    (hhash : p.hash = diff.diffHash) : indexFor previous diff lineage = p.index := by
  have hcarried := carried_eq_some.2 ⟨hp, hlineage⟩
  rw [indexFor, hcarried]
  exact if_pos hhash

theorem mem_anchored {id : Text} : id ∈ (reanchorFindings previous diff lineage findings).anchored ↔
    ∃ f ∈ findings, f.findingId = id ∧ anchors (carried previous lineage) (indexFor previous diff lineage) diff f = true := by
  show id ∈ List.toFinset _ ↔ _
  rw [List.mem_toFinset, List.mem_map]
  simp only [List.mem_filter]
  exact ⟨fun ⟨f, ⟨hf, ha⟩, hid⟩ => ⟨f, hf, hid, ha⟩, fun ⟨f, hf, hid, ha⟩ => ⟨f, ⟨hf, ha⟩, hid⟩⟩

/-- **The store itself comes back** exactly when the lineage's state is the one before. -/
theorem reanchorFindingStore_none : reanchorFindingStore store diff lineage findings = none ↔
    ∃ p, store.get lineage = some p ∧ p.lineage = lineage ∧
      reanchorFindings (store.get lineage) diff lineage findings = p := by
  have hguard : reanchorFindingStore store diff lineage findings = none ↔
      ∃ p, store.get lineage = some p ∧ p.hash = diff.diffHash ∧ reuses (store.get lineage) diff lineage = true ∧
        p.anchored = (reanchorFindings (store.get lineage) diff lineage findings).anchored := by
    unfold reanchorFindingStore
    dsimp only
    rw [ite_eq_left_iff]
    constructor
    · intro h
      by_cases hany : (store.get lineage).any (fun previous => decide (previous.hash =
          (reanchorFindings (store.get lineage) diff lineage findings).hash) && reuses (store.get lineage) diff lineage &&
          sameMembers previous.anchored (reanchorFindings (store.get lineage) diff lineage findings).anchored) = true
      · obtain ⟨p, hp, htests⟩ := (Option.any_eq_true _ _).1 hany
        rw [Bool.and_eq_true, Bool.and_eq_true, decide_eq_true_iff, sameMembers_iff] at htests
        exact ⟨p, hp, htests.1.1, htests.1.2, htests.2⟩
      · cases h hany
    · rintro ⟨p, hp, hhash, hreuses, hmembers⟩ hnot
      refine absurd ((Option.any_eq_true _ _).2 ⟨p, hp, ?_⟩) hnot
      rw [Bool.and_eq_true, Bool.and_eq_true, decide_eq_true_iff, sameMembers_iff]
      exact ⟨⟨hhash, hreuses⟩, hmembers⟩
  rw [hguard]
  constructor
  · rintro ⟨p, hp, hhash, hreuses, hmembers⟩
    obtain ⟨q, hq, hlineage, -⟩ := reuses_iff.1 hreuses
    rw [hp] at hq
    cases hq
    refine ⟨p, hp, hlineage, ?_⟩
    have hindex : indexFor (store.get lineage) diff lineage = p.index := indexFor_reused hp hlineage hhash
    obtain ⟨l, h, i, a⟩ := p
    simp only at hlineage hhash hmembers hindex
    subst hlineage
    rw [reanchorFindings, FindingAnchorState.mk.injEq]
    exact ⟨rfl, hhash.symm, hindex, hmembers.symm⟩
  · rintro ⟨p, hp, hlineage, hnext⟩
    have hhash : p.hash = diff.diffHash := by
      rw [← hnext]
      rfl
    exact ⟨p, hp, hhash, reuses_iff.2 ⟨p, hp, hlineage, hhash⟩, by rw [hnext]⟩

theorem get_apply (c : Call) : (store.apply c).get c.lineage =
    some (reanchorFindings (store.get c.lineage) c.diff c.lineage c.findings) := by
  unfold FindingAnchorStore.apply
  cases h : reanchorFindingStore store c.diff c.lineage c.findings with
  | none =>
    obtain ⟨p, hp, -, hnext⟩ := reanchorFindingStore_none.1 h
    rw [Option.getD_none, hnext, hp]
  | some updated =>
    unfold reanchorFindingStore at h
    dsimp only at h
    split at h
    · cases h
    · cases h
      rw [Option.getD_some, OrdMap.get_set, if_pos rfl]

theorem get_apply_other (c : Call) {other : Text} (h : other ≠ c.lineage) : (store.apply c).get other = store.get other := by
  unfold FindingAnchorStore.apply reanchorFindingStore
  dsimp only
  split
  · rfl
  · exact OrdMap.get_set_ne store _ h

/-- **A verdict stands**: from its own state a call derives the same state. -/
theorem reanchorFindings_again :
    reanchorFindings (some (reanchorFindings previous diff lineage findings)) diff lineage findings =
      reanchorFindings previous diff lineage findings := by
  have hindex : indexFor (some (reanchorFindings previous diff lineage findings)) diff lineage =
      indexFor previous diff lineage := indexFor_reused rfl rfl rfl
  have hcarried : carried (some (reanchorFindings previous diff lineage findings)) lineage =
      some (reanchorFindings previous diff lineage findings) := carried_eq_some.2 ⟨rfl, rfl⟩
  have hanchored : (reanchorFindings (some (reanchorFindings previous diff lineage findings)) diff lineage findings).anchored =
      (reanchorFindings previous diff lineage findings).anchored := by
    ext id
    rw [mem_anchored, hindex, hcarried]
    constructor
    · rintro ⟨f, hf, rfl, ha⟩
      by_cases hown : f.diffHash = diff.diffHash
      · exact mem_anchored.2 ⟨f, hf, rfl, if_pos hown⟩
      rw [anchors, if_neg hown] at ha
      cases hnow : (indexFor previous diff lineage).get f.key with
      | none => simp only [hnow] at ha; cases ha
      | some now =>
        cases htext : f.anchorText with
        | none =>
          simp only [hnow, htext, Option.any_some, Bool.and_eq_true, decide_eq_true_iff] at ha
          exact ha.1
        | some text =>
          simp only [hnow, htext] at ha
          refine mem_anchored.2 ⟨f, hf, rfl, ?_⟩
          rw [anchors, if_neg hown]
          simp only [hnow, htext]
          exact ha
    · intro hid
      obtain ⟨f, hf, rfl, ha⟩ := mem_anchored.1 hid
      refine ⟨f, hf, rfl, ?_⟩
      by_cases hown : f.diffHash = diff.diffHash
      · exact if_pos hown
      rw [anchors, if_neg hown] at ha ⊢
      cases hnow : (indexFor previous diff lineage).get f.key with
      | none => simp only [hnow] at ha; cases ha
      | some now =>
        cases htext : f.anchorText with
        | none =>
          simp only [Option.any_some, Bool.and_eq_true, decide_eq_true_iff]
          exact ⟨hid, hnow⟩
        | some text =>
          simp only [hnow, htext] at ha
          exact ha
  have heta : ∀ s t : FindingAnchorState, s.lineage = t.lineage → s.hash = t.hash → s.index = t.index →
      s.anchored = t.anchored → s = t := by
    rintro ⟨_, _, _, _⟩ ⟨_, _, _, _⟩ rfl rfl rfl rfl
    rfl
  exact heta _ _ rfl rfl hindex hanchored

/-- **A call made again returns the store itself.** -/
theorem apply_again (store : FindingAnchorStore) (c : Call) :
    reanchorFindingStore (store.apply c) c.diff c.lineage c.findings = none := by
  have hget : (store.apply c).get c.lineage = _ := get_apply c
  refine reanchorFindingStore_none.2 ⟨_, hget, rfl, ?_⟩
  rw [hget]
  exact reanchorFindings_again

end

/-! ## Calls in a row -/

def Distinct (findings : List ReviewFinding) : Prop := (findings.map ReviewFinding.findingId).Nodup

/-- The hash names the change-set: within a lineage, diffs of one hash have the same lines. -/
def Named (calls : List Call) : Prop := ∀ a ∈ calls, ∀ b ∈ calls, a.lineage = b.lineage →
  a.diff.diffHash = b.diff.diffHash → buildDiffAnchorIndex a.diff = buildDiffAnchorIndex b.diff

def Anchored (store : FindingAnchorStore) (lineage id : Text) : Prop := ∃ p, store.get lineage = some p ∧ id ∈ p.anchored

section

variable {calls : List Call} {c : Call} {f : ReviewFinding} {lineage : Text}

theorem run_concat (calls : List Call) (c : Call) : run (calls ++ [c]) = (run calls).apply c := by
  rw [run, List.foldl_concat]
  rfl

theorem Named.of_prefix {pre : List Call} (h : Named calls) (hpre : pre <+: calls) : Named pre :=
  fun a ha b hb => h a (hpre.subset ha) b (hpre.subset hb)

def Reflects (calls : List Call) (lineage : Text) (p : FindingAnchorState) : Prop :=
  p.lineage = lineage ∧ ∃ c ∈ calls, c.lineage = lineage ∧ p.hash = c.diff.diffHash ∧ p.index = buildDiffAnchorIndex c.diff

theorem indexFor_of_reflects (hnamed : Named (calls ++ [c])) {previous : Option FindingAnchorState}
    (h : ∀ p, previous = some p → Reflects calls c.lineage p) :
    indexFor previous c.diff c.lineage = buildDiffAnchorIndex c.diff := by
  unfold indexFor
  split
  · rename_i p hcarried
    obtain ⟨-, d, hd, hlineage, hhash, hindex⟩ := h p (carried_eq_some.1 hcarried).1
    split
    · rename_i hsame
      rw [hindex]
      exact hnamed d (List.mem_append_left _ hd) c (List.mem_append_right _ (List.mem_singleton_self c)) hlineage
        (hhash.symm.trans hsame)
    · rfl
  · rfl

theorem run_reflects : ∀ {calls : List Call}, Named calls → ∀ {lineage : Text} {p : FindingAnchorState},
    (run calls).get lineage = some p → Reflects calls lineage p := by
  intro calls
  induction calls using List.reverseRecOn with
  | nil => exact fun _ _ p hp => by cases hp
  | append_singleton calls c ih =>
    intro hnamed lineage p hp
    have hold : ∀ {l : Text} {q : FindingAnchorState}, (run calls).get l = some q → Reflects calls l q :=
      ih (hnamed.of_prefix (List.prefix_append calls [c]))
    rw [run_concat] at hp
    by_cases hlineage : lineage = c.lineage
    · subst hlineage
      rw [get_apply] at hp
      cases hp
      exact ⟨rfl, c, List.mem_append_right _ (List.mem_singleton_self c), rfl, rfl,
        indexFor_of_reflects hnamed (fun q hq => hold hq)⟩
    · rw [get_apply_other c hlineage] at hp
      obtain ⟨hown, d, hd, hd'⟩ := hold hp
      exact ⟨hown, d, List.mem_append_left _ hd, hd'⟩

/-- **A finding's verdict** after a call. -/
theorem anchored_iff (hnamed : Named (calls ++ [c])) (hdistinct : Distinct c.findings) (hf : f ∈ c.findings) :
    Anchored (run (calls ++ [c])) c.lineage f.findingId ↔
      anchors (carried ((run calls).get c.lineage) c.lineage) (buildDiffAnchorIndex c.diff) c.diff f = true := by
  have hindex := indexFor_of_reflects hnamed
    (fun p hp => run_reflects (hnamed.of_prefix (List.prefix_append calls [c])) hp)
  unfold Anchored
  rw [run_concat, get_apply]
  constructor
  · rintro ⟨p, hp, hid⟩
    cases hp
    obtain ⟨g, hg, hid, ha⟩ := mem_anchored.1 hid
    obtain rfl : g = f := List.inj_on_of_nodup_map hdistinct hg hf hid
    rw [hindex] at ha
    exact ha
  · intro ha
    exact ⟨_, rfl, mem_anchored.2 ⟨f, hf, rfl, by rw [hindex]; exact ha⟩⟩

theorem anchored_text (hnamed : Named (calls ++ [c])) (hdistinct : Distinct c.findings) (hf : f ∈ c.findings) {text : Text}
    (htext : f.anchorText = some text) : Anchored (run (calls ++ [c])) c.lineage f.findingId ↔
      f.diffHash = c.diff.diffHash ∨ f.scope = c.diff.scope ∧ (buildDiffAnchorIndex c.diff).get f.key = some text := by
  rw [anchored_iff hnamed hdistinct hf, anchors]
  by_cases hown : f.diffHash = c.diff.diffHash
  · rw [if_pos hown]
    exact ⟨fun _ => .inl hown, fun _ => rfl⟩
  rw [if_neg hown]
  cases hnow : (buildDiffAnchorIndex c.diff).get f.key with
  | none => exact ⟨fun h => absurd h Bool.false_ne_true, fun h => absurd (h.resolve_right fun hr => (Option.some_ne_none _).symm hr.2) hown⟩
  | some now =>
    simp only [htext, Bool.and_eq_true, decide_eq_true_iff, Option.some.injEq]
    constructor
    · rintro ⟨hscope, rfl⟩
      exact .inr ⟨hscope, rfl⟩
    · rintro (h | ⟨hscope, rfl⟩)
      · exact absurd h hown
      · exact ⟨hscope, rfl⟩

/-- From one diff to the next, the finding's own diff is back or its line has not changed. -/
def Keeps (f : ReviewFinding) (a b : Call) : Prop := f.diffHash = b.diff.diffHash ∨
  ∃ text, (buildDiffAnchorIndex a.diff).get f.key = some text ∧ (buildDiffAnchorIndex b.diff).get f.key = some text

theorem anchored_step {a : Call} (hnamed : Named (calls ++ [a] ++ [c])) (hlineage : a.lineage = c.lineage)
    (hdistinct : Distinct c.findings) (hf : f ∈ c.findings) (htext : f.anchorText = none) :
    Anchored (run (calls ++ [a] ++ [c])) c.lineage f.findingId ↔ f.diffHash = c.diff.diffHash ∨
      Anchored (run (calls ++ [a])) c.lineage f.findingId ∧
        ∃ text, (buildDiffAnchorIndex a.diff).get f.key = some text ∧ (buildDiffAnchorIndex c.diff).get f.key = some text := by
  have hbefore : Named (calls ++ [a]) := hnamed.of_prefix (List.prefix_append _ [c])
  have hindex := indexFor_of_reflects hbefore
    (fun p hp => run_reflects (hbefore.of_prefix (List.prefix_append calls [a])) hp)
  have hget : (run (calls ++ [a])).get c.lineage =
      some (reanchorFindings ((run calls).get a.lineage) a.diff a.lineage a.findings) := by
    rw [run_concat, ← hlineage, get_apply]
  have hcarried : carried ((run (calls ++ [a])).get c.lineage) c.lineage =
      some (reanchorFindings ((run calls).get a.lineage) a.diff a.lineage a.findings) := carried_eq_some.2 ⟨hget, hlineage⟩
  have hanchored : Anchored (run (calls ++ [a])) c.lineage f.findingId ↔
      f.findingId ∈ (reanchorFindings ((run calls).get a.lineage) a.diff a.lineage a.findings).anchored := by
    unfold Anchored
    rw [hget]
    exact ⟨fun ⟨p, hp, hid⟩ => by cases hp; exact hid, fun hid => ⟨_, rfl, hid⟩⟩
  have hstate : (reanchorFindings ((run calls).get a.lineage) a.diff a.lineage a.findings).index =
      buildDiffAnchorIndex a.diff := hindex
  rw [anchored_iff hnamed hdistinct hf, anchors, hcarried, hanchored]
  by_cases hown : f.diffHash = c.diff.diffHash
  · rw [if_pos hown]
    exact ⟨fun _ => .inl hown, fun _ => rfl⟩
  rw [if_neg hown]
  cases hnow : (buildDiffAnchorIndex c.diff).get f.key with
  | none => exact ⟨fun h => absurd h Bool.false_ne_true,
      fun h => absurd (h.resolve_right fun ⟨_, _, _, hr⟩ => (Option.some_ne_none _).symm hr) hown⟩
  | some now =>
    simp only [htext, Option.any_some, Bool.and_eq_true, decide_eq_true_iff, hstate, Option.some.injEq]
    constructor
    · rintro ⟨hid, hsame⟩
      exact .inr ⟨hid, now, hsame, rfl⟩
    · rintro (h | ⟨hid, text, hsame, rfl⟩)
      · exact absurd h hown
      · exact ⟨hid, hsame⟩

/-- **A finding without its line's text stays anchored** over the diffs of a lineage exactly when every step keeps it. -/
theorem anchored_chain (htext : f.anchorText = none) : ∀ {calls : List Call}, Named calls →
    (∀ c ∈ calls, c.lineage = lineage ∧ Distinct c.findings ∧ f ∈ c.findings) →
    ((∀ pre, pre ≠ [] → pre <+: calls → Anchored (run pre) lineage f.findingId) ↔
      (∀ c ∈ calls.head?, f.diffHash = c.diff.diffHash) ∧ calls.IsChain (Keeps f)) := by
  intro calls
  induction calls using List.reverseRecOn with
  | nil =>
    intro _ _
    exact ⟨fun _ => ⟨fun c hc => (by cases hc), .nil⟩, fun _ pre hne hpre => absurd (List.prefix_nil.1 hpre) hne⟩
  | append_singleton calls c ih =>
    intro hnamed hcalls
    have hbefore := List.prefix_append calls [c]
    have hold := ih (hnamed.of_prefix hbefore) (fun d hd => hcalls d (hbefore.subset hd))
    obtain ⟨rfl, hdistinct, hf⟩ := hcalls c (List.mem_append_right _ (List.mem_singleton_self c))
    have hsplit : (∀ pre, pre ≠ [] → pre <+: calls ++ [c] → Anchored (run pre) c.lineage f.findingId) ↔
        (∀ pre, pre ≠ [] → pre <+: calls → Anchored (run pre) c.lineage f.findingId) ∧
          Anchored (run (calls ++ [c])) c.lineage f.findingId := by
      constructor
      · intro h
        exact ⟨fun pre hne hpre => h pre hne (hpre.trans hbefore), h _ (by simp) (List.prefix_refl _)⟩
      · rintro ⟨h, hlast⟩ pre hne hpre
        rcases List.prefix_concat_iff.1 hpre with rfl | hpre
        · exact hlast
        · exact h pre hne hpre
    rw [hsplit, hold, List.isChain_append]
    rcases List.eq_nil_or_concat calls with rfl | ⟨init, a, rfl⟩
    · -- the first diff of a lineage has no state before it
      have hfirst : Anchored (run ([] ++ [c])) c.lineage f.findingId ↔ f.diffHash = c.diff.diffHash := by
        rw [anchored_iff hnamed hdistinct hf, anchors]
        have hnone : carried ((run []).get c.lineage) c.lineage = none := rfl
        rw [hnone]
        split
        · rename_i hown
          exact ⟨fun _ => hown, fun _ => rfl⟩
        · rename_i hown
          split
          · exact ⟨fun h => absurd h Bool.false_ne_true, fun h => absurd h hown⟩
          · simp [htext, hown]
      rw [hfirst]
      simp
    · rw [List.concat_eq_append] at hnamed hcalls hsplit hold ⊢
      have hlineage := (hcalls a (by simp)).1
      rw [anchored_step hnamed hlineage hdistinct hf htext]
      have hhead : (init ++ [a] ++ [c]).head? = (init ++ [a]).head? := List.head?_append_of_ne_nil _ (by simp)
      have hlastly : (init ++ [a]).getLast? = some a := List.getLast?_concat
      rw [hhead, hlastly]
      simp only [List.head?_cons, Option.mem_def, Option.some.injEq, forall_eq']
      constructor
      · rintro ⟨⟨hfirst, hchain⟩, hlast⟩
        exact ⟨hfirst, hchain, .singleton _, hlast.imp id And.right⟩
      · rintro ⟨hfirst, hchain, -, hkeeps⟩
        exact ⟨⟨hfirst, hchain⟩, hkeeps.imp id fun hline =>
          ⟨hold.2 ⟨hfirst, hchain⟩ _ (by simp) (List.prefix_refl _), hline⟩⟩

theorem get_run_filter (lineage : Text) : ∀ calls : List Call,
    (run calls).get lineage = (run (calls.filter (fun c => decide (c.lineage = lineage)))).get lineage := by
  intro calls
  induction calls using List.reverseRecOn with
  | nil => rfl
  | append_singleton calls c ih =>
    rw [run_concat, List.filter_append]
    by_cases hlineage : c.lineage = lineage
    · subst hlineage
      rw [List.filter_cons_of_pos (by simp), List.filter_nil, run_concat, get_apply, get_apply, ih]
    · rw [List.filter_cons_of_neg (by simpa using hlineage), List.filter_nil, List.append_nil,
        get_apply_other c (Ne.symm hlineage), ih]

/-- **Anchors are stable**: a finding stays anchored over a lineage's diffs exactly when at every step its line has not
changed or its diff is back. -/
theorem anchors_stable :
    (∀ (store : FindingAnchorStore) (c : Call), reanchorFindingStore (store.apply c) c.diff c.lineage c.findings = none) ∧
    (∀ (store : FindingAnchorStore) (c : Call), reanchorFindingStore store c.diff c.lineage c.findings = none ↔
      ∃ p, store.get c.lineage = some p ∧ p.lineage = c.lineage ∧
        reanchorFindings (store.get c.lineage) c.diff c.lineage c.findings = p) ∧
    (∀ (calls : List Call) (c : Call) (f : ReviewFinding) (text : Text), Named (calls ++ [c]) → Distinct c.findings →
      f ∈ c.findings → f.anchorText = some text → (Anchored (run (calls ++ [c])) c.lineage f.findingId ↔
        f.diffHash = c.diff.diffHash ∨ f.scope = c.diff.scope ∧ (buildDiffAnchorIndex c.diff).get f.key = some text)) ∧
    (∀ (calls : List Call) (lineage : Text) (f : ReviewFinding), Named calls →
      (∀ c ∈ calls, c.lineage = lineage ∧ Distinct c.findings ∧ f ∈ c.findings) → f.anchorText = none →
      ((∀ pre, pre ≠ [] → pre <+: calls → Anchored (run pre) lineage f.findingId) ↔
        (∀ c ∈ calls.head?, f.diffHash = c.diff.diffHash) ∧ calls.IsChain (Keeps f))) ∧
    ∀ (calls : List Call) (lineage : Text),
      (run calls).get lineage = (run (calls.filter (fun c => decide (c.lineage = lineage)))).get lineage :=
  ⟨apply_again, fun _ _ => reanchorFindingStore_none,
    fun _ _ _ _ hnamed hdistinct hf htext => anchored_text hnamed hdistinct hf htext,
    fun _ _ _ hnamed hcalls htext => anchored_chain htext hnamed hcalls, fun calls lineage => get_run_filter lineage calls⟩

end

def oneLine (hash text : Text) : GitDiffInfo := ⟨.uncommitted, [⟨[102], [⟨0, 1, [⟨.added, text⟩]⟩]⟩], hash⟩

def onLine : ReviewFinding := ⟨[120], .uncommitted, [97], [102], .right, 1, none⟩

theorem anchors_stable_kept : Anchored (run [⟨[], oneLine [97] [108], [onLine]⟩, ⟨[], oneLine [98] [108], [onLine]⟩]) []
    onLine.findingId := by
  have hline : (buildDiffAnchorIndex (oneLine [97] [108])).get onLine.key = some [108] := by decide
  have hnamed : Named [⟨[], oneLine [97] [108], [onLine]⟩, ⟨[], oneLine [98] [108], [onLine]⟩] := by
    intro a ha b hb _ _
    simp only [List.mem_cons, List.not_mem_nil, or_false] at ha hb
    rcases ha with rfl | rfl <;> rcases hb with rfl | rfl <;> rfl
  refine (anchors_stable.2.2.2.1 _ [] onLine hnamed ?_ rfl).2 ⟨?_, ?_⟩ _ (List.cons_ne_nil _ _) (List.prefix_refl _)
  · intro c hc
    simp only [List.mem_cons, List.not_mem_nil, or_false] at hc
    rcases hc with rfl | rfl <;> exact ⟨rfl, List.nodup_singleton _, List.mem_singleton_self _⟩
  · intro c hc
    obtain rfl := Option.some.inj hc
    rfl
  · exact .cons_cons (.inr ⟨[108], hline, hline⟩) (.singleton _)

end Wollipog.Reviews

import Mathlib.Tactic.Ring
import Wollipog.Ports.Allocator
/-!
# Disjoint — port blocks are disjoint, and stay with their owners

Whatever the calls and the flushes do, the journal holds disjoint blocks, one for each owner. While no flush fails
after its rename, a block stays with its owner until it is released.
-/
namespace Wollipog.Ports

theorem WorktreePortOwner.text_ne_empty (o : WorktreePortOwner) : o.text ≠ "" := by
  intro h
  have hlength := congrArg String.length h
  unfold WorktreePortOwner.text at hlength
  rw [String.length_append, String.length_append] at hlength
  have hone : ("\x00" : String).length = 1 := rfl
  have hzero : ("" : String).length = 0 := rfl
  omega

/-- The `i`th block of the grid. -/
def gridBlock (range : RunnerWorktreePorts) (i : Nat) : WorktreePortBlock :=
  ⟨range.start + i * range.blockSize, range.start + i * range.blockSize + range.blockSize - 1, range.blockSize⟩

variable {w w' : World} {l : List Observation} {b : WorktreePortBlock} {preferred : Option WorktreePortBlock}

theorem mem_candidates {range : RunnerWorktreePorts} :
    b ∈ candidates range ↔ ∃ i : Nat, b = gridBlock range i ∧ b.end_ ≤ range.end_ := by
  have hpos : 0 < range.blockSize := range.blockSize_pos
  unfold candidates
  rw [List.mem_map]
  constructor
  · rintro ⟨i, hi, rfl⟩
    refine ⟨i, rfl, ?_⟩
    rw [List.mem_range] at hi
    have hq : (i : Int) + 1 ≤ (range.end_ - range.start + 1) / range.blockSize := by omega
    have hmul : ((i : Int) + 1) * range.blockSize ≤ range.end_ - range.start + 1 :=
      (Int.mul_le_mul_of_nonneg_right hq hpos.le).trans (Int.ediv_mul_le _ (ne_of_gt hpos))
    have hexpand : ((i : Int) + 1) * range.blockSize = i * range.blockSize + range.blockSize := by ring
    simp only
    omega
  · rintro ⟨i, rfl, hend⟩
    refine ⟨i, ?_, rfl⟩
    unfold gridBlock at hend
    simp only at hend
    have hexpand : ((i : Int) + 1) * range.blockSize = i * range.blockSize + range.blockSize := by ring
    have hmul : ((i : Int) + 1) * range.blockSize ≤ range.end_ - range.start + 1 := by omega
    have hq : (i : Int) + 1 ≤ (range.end_ - range.start + 1) / range.blockSize := Int.le_ediv_of_mul_le hpos hmul
    rw [List.mem_range]
    omega

theorem validBlock_of_candidate {range : RunnerWorktreePorts} (h : b ∈ candidates range) : validBlock b = true := by
  obtain ⟨i, rfl, hend⟩ := mem_candidates.1 h
  have hstart := range.start_ge
  have hlast := range.end_le
  have hpos := range.blockSize_pos
  have hnonneg : 0 ≤ (i : Int) * range.blockSize := Int.mul_nonneg (Int.natCast_nonneg i) (by omega)
  unfold gridBlock at hend ⊢
  unfold validBlock
  simp only [Bool.and_eq_true, decide_eq_true_eq] at hend ⊢
  omega

theorem select_ok {range : RunnerWorktreePorts} {m : Allocations}
    (h : select range m preferred = .ok b) : validBlock b = true ∧ taken m b = false := by
  unfold select at h
  split at h
  · rename_i p
    split at h
    · cases h
    · rename_i hvalid
      split at h
      · cases h
      · rename_i hfree
        cases h
        rw [Bool.not_eq_true', Bool.not_eq_false] at hvalid
        exact ⟨hvalid, Bool.eq_false_iff.2 hfree⟩
  · split at h
    · rename_i candidate hfind
      cases h
      have hfree := List.find?_some hfind
      rw [Bool.not_eq_true'] at hfree
      exact ⟨validBlock_of_candidate (List.mem_of_find?_eq_some hfind), hfree⟩
    · cases h

theorem select_exhausted {range : RunnerWorktreePorts} {m : Allocations}
    (h : select range m preferred = .error .exhausted) : ∀ b ∈ candidates range, taken m b = true := by
  unfold select at h
  split at h
  · split at h
    · cases h
    · split at h
      · cases h
      · cases h
  · split at h
    · cases h
    · rename_i hnone
      intro b hb
      have hnot := List.find?_eq_none.1 hnone b hb
      rw [Bool.not_eq_true', Bool.not_eq_false] at hnot
      exact hnot

theorem taken_iff {journal : Option (List WorktreePortAllocation)} {m : Allocations} (h : Recorded journal m)
    (b : WorktreePortBlock) : taken m b = true ↔ ∃ a ∈ journal.getD [], overlaps a.block b = true := by
  unfold taken
  rw [h.entries, List.any_eq_true]

structure Separate (l : List WorktreePortAllocation) : Prop where
  owners : (l.map WorktreePortAllocation.owner).Nodup
  blocks : l.Pairwise (fun a b => overlaps a.block b.block = false)

theorem Recorded.separate {journal : Option (List WorktreePortAllocation)} {m : Allocations} (h : Recorded journal m) :
    Separate (journal.getD []) := by
  have howners : (values m).map WorktreePortAllocation.owner = m.entries.map Prod.fst := by
    unfold values
    rw [List.map_map]
    apply List.map_congr_left
    intro e he
    exact (h.good.entry e.1 e.2 he).1
  rw [h.entries]
  refine ⟨by rw [howners]; exact m.nodup, ?_⟩
  unfold values
  rw [List.pairwise_map]
  exact h.good.disjoint

theorem good_allocated {range : RunnerWorktreePorts} {m : Allocations} (h : Good m) {owner : WorktreePortOwner} (clock : Clock) (hget : m.get owner.text = none)
    (hselect : select range m preferred = .ok b) : Good (m.set owner.text ⟨owner.text, b, clock.now⟩) := by
  obtain ⟨hvalid, hfree⟩ := select_ok hselect
  exact h.set hget ⟨rfl, owner.text_ne_empty, clock.safe, hvalid⟩ hfree

variable {range : RunnerWorktreePorts} {journal : Option (List WorktreePortAllocation)} {m : Allocations} {io : FlushIo} {c : Call} {r : Allocations × Option (List WorktreePortAllocation) × Ended}

/-- **A call leaves a journal that is read.** -/
theorem Outcome.recorded (ho : Outcome range journal m io c r) (h : Recorded journal m) : ∃ m', Recorded r.2.1 m' := by
  cases ho with
  | again => exact ⟨m, h⟩
  | disagrees => exact ⟨m, h⟩
  | refused => exact ⟨m, h⟩
  | allocated owner preferred clock b hget hselect => exact ⟨_, recorded_values (good_allocated h.good clock hget hselect)⟩
  | allocateFailed owner preferred clock b hget hselect =>
    by_cases hio : io.replaces = true
    · rw [if_pos hio]
      exact ⟨_, recorded_values (good_allocated h.good clock hget hselect)⟩
    · rw [if_neg hio]
      exact ⟨m, h⟩
  | absent => exact ⟨m, h⟩
  | released owner => exact ⟨_, recorded_values (h.good.erase owner.text)⟩
  | releaseFailed owner =>
    by_cases hio : io.replaces = true
    · rw [if_pos hio]
      exact ⟨_, recorded_values (h.good.erase owner.text)⟩
    · rw [if_neg hio]
      exact ⟨m, h⟩

def World.empty : World := ⟨none, OrdMap.empty⟩

theorem step_cases {e : Event} {o : List Observation} (h : step w e = some (w', o)) :
    (∃ p range, e = .construct p range ∧ w'.journal = w.journal ∧ o = []) ∨
    ∃ p c io process, e = .call p c io ∧ w.processes.get p = some process ∧
      w' = ⟨(c.run process.range w.journal io).2.1,
        w.processes.set p { process with allocations := (c.run process.range w.journal io).1 }⟩ ∧
      o = [⟨c, (c.run process.range w.journal io).2.2⟩] := by
  cases e with
  | construct p range =>
    unfold step at h
    simp only at h
    split at h
    · cases h
      exact .inl ⟨p, range, rfl, rfl, rfl⟩
    · cases h
  | call p c io =>
    unfold step at h
    simp only at h
    split at h
    · cases h
    · rename_i process hprocess
      cases h
      exact .inr ⟨p, c, io, process, rfl, hprocess, rfl, rfl⟩

/-- **In every run the journal is read.** -/
theorem recorded_of_run (h : Sys.Run step World.empty l w) : ∃ m, Recorded w.journal m := by
  refine h.inv (fun w => ∃ m, Recorded w.journal m) ?_ ⟨OrdMap.empty, recorded_none⟩
  rintro w e w' o hstep ⟨m, hm⟩
  rcases step_cases hstep with ⟨p, range, rfl, hjournal, rfl⟩ | ⟨p, c, io, process, rfl, -, rfl, rfl⟩
  · rw [hjournal]
    exact ⟨m, hm⟩
  · exact (run_outcome hm.read process.range c io).recorded hm

/-- **A call whose flush fails** leaves the allocations, and the journal unless it failed late. -/
theorem Outcome.flushFailed (ho : Outcome range journal m io c r) (h : Recorded journal m) (hfailed : r.2.2 = .flushFailed) :
    (∀ o, r.1.get o = m.get o) ∧ (r.2.1 = journal ↔ io.replaces = false) := by
  have hlength : ∀ m' : Allocations, some (values m') = journal → (values m').length = (values m).length := by
    intro m' heq
    rw [← h.entries, ← heq]
    rfl
  cases ho with
  | again => cases hfailed
  | disagrees => cases hfailed
  | refused => cases hfailed
  | allocated => cases hfailed
  | allocateFailed owner preferred clock b hget hselect =>
    refine ⟨fun _ => rfl, ?_⟩
    by_cases hio : io.replaces = true
    · rw [if_pos hio, hio]
      refine ⟨fun heq => ?_, fun hfalse => by cases hfalse⟩
      have hlonger := hlength _ heq
      unfold values at hlonger
      rw [OrdMap.entries_set_new hget, List.map_append, List.length_append] at hlonger
      exact absurd hlonger (by rw [List.map_cons, List.map_nil, List.length_singleton]; omega)
    · rw [if_neg hio]
      exact ⟨fun _ => Bool.eq_false_iff.2 hio, fun _ => rfl⟩
  | absent => cases hfailed
  | released => cases hfailed
  | releaseFailed owner a hget hio' =>
    constructor
    · intro o
      rw [OrdMap.get_set, OrdMap.get_erase]
      by_cases ho : o = owner.text
      · rw [if_pos ho, ho, hget]
      · rw [if_neg ho, if_neg ho]
    · by_cases hio : io.replaces = true
      · rw [if_pos hio, hio]
        refine ⟨fun heq => ?_, fun hfalse => by cases hfalse⟩
        have hentries := h.entries
        rw [← heq] at hentries
        have hmem : a ∈ values m := List.mem_map.2 ⟨_, OrdMap.mem_of_get hget, rfl⟩
        have hvalues : values (m.erase owner.text) = values m := hentries
        rw [← hvalues] at hmem
        obtain ⟨⟨k, a'⟩, he, rfl⟩ := List.mem_map.1 hmem
        obtain ⟨hin, hne⟩ := List.mem_filter.1 he
        have hkey := (h.good.entry k a' hin).1
        have hkey' := (h.good.entry _ a' (OrdMap.mem_of_get hget)).1
        exact absurd (hkey.symm.trans hkey') (of_decide_eq_true hne)
      · rw [if_neg hio]
        exact ⟨fun _ => Bool.eq_false_iff.2 hio, fun _ => rfl⟩

/-- The block that an owner was given and has not released, as one observation changes it. -/
def heldStep (o : String) (b : Option WorktreePortBlock) (x : Observation) : Option WorktreePortBlock :=
  match x.call, x.ended with
  | .allocate owner _ _, .returned b' => if owner.text = o then some b' else b
  | .release owner, .released _ => if owner.text = o then none else b
  | _, _ => b

def held (l : List Observation) (o : String) : Option WorktreePortBlock := l.foldl (heldStep o) none

/-- A call for an owner that holds a block returns it unless the caller asks for another one. -/
def StableAt (l : List Observation) (x : Observation) : Prop :=
  ∀ owner preferred clock b, x.call = .allocate owner preferred clock → held l owner.text = some b →
    ((∀ p, preferred = some p → p = b) → x.ended = .returned b) ∧ ∀ b', x.ended = .returned b' → b' = b

def Call.writes (c : Call) (range : RunnerWorktreePorts) (journal : Option (List WorktreePortAllocation)) : Bool :=
  match c with
  | .allocate owner preferred _ => ((reload journal).1.get owner.text).isNone && (select range (reload journal).1 preferred).isOk
  | .release owner => ((reload journal).1.get owner.text).isSome

def NoLateFailure (_ : List Observation) (w : World) (e : Event) : Prop :=
  ∀ p c io process, e = .call p c io → w.processes.get p = some process → c.writes process.range w.journal = true →
    io.replaces = true → io.settles = true

def blockOf (m : Allocations) (o : String) : Option WorktreePortBlock := (m.get o).map WorktreePortAllocation.block

theorem Outcome.not_late (ho : Outcome range journal m io c r) (h : Recorded journal m)
    (hio : c.writes range journal = true → io.replaces = true → io.settles = true) (hfailed : r.2.2 = .flushFailed) :
    io.replaces = false := by
  have hmap : (reload journal).1 = m := by rw [h.read]
  have hlate : c.writes range journal = true → ¬(io.replaces = true ∧ io.settles = true) → io.replaces = false := by
    intro hwrites hnot
    by_contra hreplaces
    rw [Bool.not_eq_false] at hreplaces
    exact hnot ⟨hreplaces, hio hwrites hreplaces⟩
  cases ho with
  | again => cases hfailed
  | disagrees => cases hfailed
  | refused => cases hfailed
  | allocated => cases hfailed
  | allocateFailed owner preferred clock b hget hselect hnot =>
    apply hlate _ hnot
    unfold Call.writes
    simp only
    rw [hmap, hget, hselect]
    rfl
  | absent => cases hfailed
  | released => cases hfailed
  | releaseFailed owner a hget hnot =>
    apply hlate _ hnot
    unfold Call.writes
    simp only
    rw [hmap, hget]
    rfl

theorem Outcome.held (ho : Outcome range journal m io c r) (h : Recorded journal m)
    (hio : c.writes range journal = true → io.replaces = true → io.settles = true) {l : List Observation}
    (hl : ∀ o b, held l o = some b → blockOf m o = some b) :
    StableAt l ⟨c, r.2.2⟩ ∧
      ∃ m', Recorded r.2.1 m' ∧ ∀ o b, Ports.held (l ++ [⟨c, r.2.2⟩]) o = some b → blockOf m' o = some b := by
  have hsnoc : ∀ (x : Observation) (o : String), Ports.held (l ++ [x]) o = heldStep o (Ports.held l o) x := by
    intro x o
    unfold Ports.held
    rw [List.foldl_append]
    rfl
  have hnotlate := fun hfailed => ho.not_late h hio hfailed
  cases ho with
  | again owner preferred clock existing hget hagrees =>
    have hblock : blockOf m owner.text = some existing.block := by
      unfold blockOf
      rw [hget]
      rfl
    refine ⟨?_, m, h, ?_⟩
    · intro owner' preferred' clock' b hcall hheld
      cases hcall
      have hb := hl _ b hheld
      rw [hblock] at hb
      cases hb
      exact ⟨fun _ => rfl, fun b' hb' => by cases hb'; rfl⟩
    · intro o b hb
      rw [hsnoc] at hb
      unfold heldStep at hb
      simp only at hb
      split at hb
      · rename_i heq
        rw [← heq, hblock]
        exact hb
      · exact hl o b hb
  | disagrees owner preferred clock existing hget p hp hne =>
    refine ⟨?_, m, h, fun o b hb => hl o b (by rw [hsnoc] at hb; exact hb)⟩
    intro owner' preferred' clock' b hcall hheld
    cases hcall
    have hb := hl _ b hheld
    unfold blockOf at hb
    rw [hget] at hb
    cases hb
    exact ⟨fun hall => absurd (hall p hp) hne, fun b' hb' => by cases hb'⟩
  | refused owner preferred clock r hget hselect =>
    refine ⟨?_, m, h, fun o b hb => hl o b (by rw [hsnoc] at hb; exact hb)⟩
    intro owner' preferred' clock' b hcall hheld
    cases hcall
    have hb := hl _ b hheld
    unfold blockOf at hb
    rw [hget] at hb
    cases hb
  | allocated owner preferred clock b hget hselect hdone =>
    refine ⟨?_, _, recorded_values (good_allocated h.good clock hget hselect), ?_⟩
    · intro owner' preferred' clock' b' hcall hheld
      cases hcall
      have hb := hl _ b' hheld
      unfold blockOf at hb
      rw [hget] at hb
      cases hb
    · intro o b' hb'
      rw [hsnoc] at hb'
      unfold heldStep at hb'
      unfold blockOf
      rw [OrdMap.get_set]
      simp only at hb'
      split at hb'
      · rename_i heq
        rw [if_pos heq.symm]
        exact hb'
      · rename_i hne
        rw [if_neg (Ne.symm hne)]
        exact hl o b' hb'
  | allocateFailed owner preferred clock b hget hselect hnot =>
    have hsame := hnotlate rfl
    refine ⟨?_, m, ?_, fun o b hb => hl o b (by rw [hsnoc] at hb; exact hb)⟩
    · intro owner' preferred' clock' b' hcall hheld
      cases hcall
      have hb := hl _ b' hheld
      unfold blockOf at hb
      rw [hget] at hb
      cases hb
    · simp only [hsame]
      exact h
  | absent owner hget =>
    refine ⟨fun owner' preferred' clock' b' hcall => (by cases hcall), m, h, ?_⟩
    intro o b hb
    rw [hsnoc] at hb
    unfold heldStep at hb
    simp only at hb
    split at hb
    · cases hb
    · exact hl o b hb
  | released owner a hget hdone =>
    refine ⟨fun owner' preferred' clock' b' hcall => (by cases hcall), _, recorded_values (h.good.erase owner.text), ?_⟩
    intro o b hb
    rw [hsnoc] at hb
    unfold heldStep at hb
    unfold blockOf
    rw [OrdMap.get_erase]
    simp only at hb
    split at hb
    · cases hb
    · rename_i hne
      rw [if_neg (Ne.symm hne)]
      exact hl o b hb
  | releaseFailed owner a hget hnot =>
    have hsame := hnotlate rfl
    refine ⟨fun owner' preferred' clock' b' hcall => (by cases hcall), m, ?_, fun o b hb => hl o b (by rw [hsnoc] at hb; exact hb)⟩
    simp only [hsame]
    exact h

/-- **While no flush fails late, a block stays with its owner** until it is released. -/
theorem stable_of_run (h : Sys.RunOn NoLateFailure step World.empty l w) :
    (∃ m, Recorded w.journal m ∧ ∀ o b, held l o = some b → blockOf m o = some b) ∧
      ∀ pre x post, l = pre ++ x :: post → StableAt pre x := by
  refine h.hist (fun l w => (∃ m, Recorded w.journal m ∧ ∀ o b, held l o = some b → blockOf m o = some b) ∧
    ∀ pre x post, l = pre ++ x :: post → StableAt pre x) ?_ ?_
  · refine ⟨⟨OrdMap.empty, recorded_none, fun o b hb => (by cases hb)⟩, ?_⟩
    intro pre x post hnil
    exact absurd hnil.symm (List.append_ne_nil_of_right_ne_nil pre (List.cons_ne_nil x post))
  · rintro l w e w' o ⟨⟨m, hm, hheld⟩, hstable⟩ hC hstep
    rcases step_cases hstep with ⟨p, range, rfl, hjournal, rfl⟩ | ⟨p, c, io, process, rfl, hprocess, rfl, rfl⟩
    · rw [List.append_nil, hjournal]
      exact ⟨⟨m, hm, hheld⟩, hstable⟩
    · have hone := (run_outcome hm.read process.range c io).held hm (hC p c io process rfl hprocess) hheld
      refine ⟨hone.2, ?_⟩
      intro pre x post hl
      rcases List.eq_nil_or_concat post with rfl | ⟨post', y, rfl⟩
      · have hparts := List.append_inj' hl rfl
        cases hparts.2
        rw [← hparts.1]
        exact hone.1
      · have hsplit : pre ++ x :: post'.concat y = (pre ++ x :: post') ++ [y] := by
          rw [List.concat_eq_append, List.append_assoc]
          rfl
        rw [hsplit] at hl
        exact hstable pre x post' (List.append_inj' hl rfl).1

theorem call_of_run (h : Sys.Run step World.empty l w) {p : Nat} {c : Call}
    {io : FlushIo} {process : Process} {x : Observation} (hprocess : w.processes.get p = some process)
    (hstep : step w (.call p c io) = some (w', [x])) :
    (x.ended = .flushFailed → (w'.journal = w.journal ↔ io.replaces = false) ∧
      ∃ process', w'.processes.get p = some process' ∧
        ∀ o, process'.allocations.get o = (reload w.journal).1.get o) ∧
    (x.ended = .refused .exhausted → ∀ i, (gridBlock process.range i).end_ ≤ process.range.end_ →
      ∃ a ∈ w.journal.getD [], overlaps a.block (gridBlock process.range i) = true) := by
  obtain ⟨m, hm⟩ := recorded_of_run h
  have hout := run_outcome hm.read process.range c io
  rcases step_cases hstep with ⟨p', range, heq, -, -⟩ | ⟨p', c', io', process', heq, hprocess', hw', hx⟩
  · cases heq
  · cases heq
    rw [hprocess] at hprocess'
    cases hprocess'
    have hended : x.ended = (c.run process.range w.journal io).2.2 := by
      rw [List.cons.injEq] at hx
      rw [hx.1]
    rw [hended, hw']
    constructor
    · intro hfailed
      obtain ⟨hmemory, hjournal⟩ := hout.flushFailed hm hfailed
      refine ⟨hjournal, _, OrdMap.get_set_self _ _ _, ?_⟩
      intro o
      rw [hm.read]
      exact hmemory o
    · intro hexhausted i hi
      generalize c.run process.range w.journal io = r at hout hexhausted
      have hselect : ∃ preferred, select process.range m preferred = .error .exhausted := by
        cases hout with
        | again => cases hexhausted
        | disagrees => cases hexhausted
        | refused owner preferred clock r hget hselect =>
          cases hexhausted
          exact ⟨preferred, hselect⟩
        | allocated => cases hexhausted
        | allocateFailed => cases hexhausted
        | absent => cases hexhausted
        | released => cases hexhausted
        | releaseFailed => cases hexhausted
      obtain ⟨preferred, hselect⟩ := hselect
      exact (taken_iff hm _).1 (select_exhausted hselect _ (mem_candidates.2 ⟨i, rfl, hi⟩))

/-- **Port blocks are disjoint, and stable while no flush fails late**: an owner keeps its block until it releases it, and
exhaustion is reported only of a full grid. -/
theorem port_blocks_disjoint_and_stable (l : List Observation) (w : World) : (Sys.RunOn NoLateFailure step World.empty l w →
      Separate (w.journal.getD []) ∧ (∀ pre x post, l = pre ++ x :: post → StableAt pre x) ∧
      ∀ p c io process w' x, w.processes.get p = some process → NoLateFailure l w (.call p c io) →
        step w (.call p c io) = some (w', [x]) →
        (x.ended = .flushFailed → w'.journal = w.journal ∧ ∃ process', w'.processes.get p = some process' ∧
          ∀ o, process'.allocations.get o = (reload w.journal).1.get o) ∧
        (x.ended = .refused .exhausted → ∀ i, (gridBlock process.range i).end_ ≤ process.range.end_ →
          ∃ a ∈ w.journal.getD [], overlaps a.block (gridBlock process.range i) = true)) ∧
    (Sys.Run step World.empty l w → Separate (w.journal.getD []) ∧
      ∀ p c io process w' x, w.processes.get p = some process → step w (.call p c io) = some (w', [x]) →
        x.ended = .flushFailed → (w'.journal = w.journal ↔ io.replaces = false)) := by
  constructor
  · intro h
    obtain ⟨⟨m, hm, -⟩, hstable⟩ := stable_of_run h
    refine ⟨hm.separate, hstable, ?_⟩
    intro p c io process w' x hprocess hC hstep
    obtain ⟨hfailed, hexhausted⟩ := call_of_run h.run hprocess hstep
    refine ⟨?_, hexhausted⟩
    intro hended
    obtain ⟨hiff, hmemory⟩ := hfailed hended
    refine ⟨hiff.2 ?_, hmemory⟩
    rcases step_cases hstep with ⟨p', range, heq, -, -⟩ | ⟨p', c', io', process', heq, hprocess', hw', hx⟩
    · cases heq
    · cases heq
      rw [List.cons.injEq] at hx
      rw [hx.1] at hended
      exact (run_outcome hm.read process'.range c io).not_late hm (hC p c io process' rfl hprocess') hended
  · intro h
    obtain ⟨m, hm⟩ := recorded_of_run h
    refine ⟨hm.separate, ?_⟩
    intro p c io process w' x hprocess hstep hended
    exact ((call_of_run h hprocess hstep).1 hended).1

theorem late_failure_keeps_block : ∃ w w' x, Sys.Run step World.empty [] w ∧
      step w (.call 0 (.allocate ⟨"s", "w"⟩ none ⟨7, by decide⟩) ⟨true, true, true, true, true, none, some "EIO", true⟩) =
        some (w', [x]) ∧
      x.ended = .flushFailed ∧ w'.journal ≠ w.journal ∧ w'.journal = some [⟨"s\x00w", ⟨42000, 42001, 2⟩, 7⟩] := by
  have hrun : Sys.Run step World.empty []
      ⟨none, OrdMap.empty.set 0 ⟨⟨42000, 42005, 2, by decide, by decide, by decide, by decide⟩, OrdMap.empty⟩⟩ :=
    Sys.Run.single (e := .construct 0 ⟨42000, 42005, 2, by decide, by decide, by decide, by decide⟩) rfl
  refine ⟨_, _, _, hrun, rfl, ?_, ?_, ?_⟩
  · decide +kernel
  · decide +kernel
  · decide +kernel

end Wollipog.Ports

import Wollipog.Admission.Box
/-!
# Owned — what every primitive does to the directories of others

Every directory that a live process owns is the one its own acquisition made, as long as no removal of an inspected
slot hits an owned one (`Heeds`).
-/
namespace Wollipog
namespace Admission

open Resume

def Owned (w : World) (slot : Slot) : Prop := ∃ pid who call slots, Owns w pid who call slots ∧ slot ∈ slots

/-- The primitives of an operation that goes well: only dead slots are removed. -/
def Heeded (w : World) (r : Running) (x : Choice) : Call → Prop
  | .mkdirRoot _ => x.throws = true → r.mine.stamped = []
  | .rm .reclaim slot => (x.throws = false → ¬ Owned w slot) ∧ (x.throws = true → r.mine.stamped = [])
  | .rm .scan slot => x.throws = false → ¬ Owned w slot
  | .rm .unwritten _ => x.throws = false
  | .rm .release _ => (∃ request code, r.operation = .acquiring request code) → x.throws = false
  | .readOwner true _ => (∃ request code, r.operation = .acquiring request code) → x.throws = false
  | _ => True

def Heeds (w : World) : Event → Prop
  | .perform pid x => ∀ p r o k, w.live.get pid = some p → p.running = some r → r.operation.pending = some (o, k) → Heeded w r x o
  | _ => True

section Moves

variable {w : World} {token : String} {call : Nat} {m : Mine}

/-- What a primitive may do to the directories and to the note of the operation that performs it. -/
inductive Moves (w : World) (token : String) (call : Nat) (m : Mine) : OrdMap Slot Dir → Mine → Prop
  | nothing : Moves w token call m w.dirs m
  | made (slot : Slot) (hfresh : m.fresh = none) (hnew : w.dirs.get slot = none) :
      Moves w token call m (w.dirs.set slot ⟨call, none⟩) ⟨m.stamped, some slot⟩
  | written (slot : Slot) (owner : SlotOwner) (hfresh : m.fresh = some slot) (htoken : owner.token = token) :
      Moves w token call m (w.dirs.modify slot (fun dir => { dir with owner := some owner })) ⟨m.stamped ++ [slot], none⟩
  | undone (slot : Slot) (hfresh : m.fresh = some slot) : Moves w token call m (w.dirs.erase slot) ⟨m.stamped, none⟩
  | released (slot : Slot) (hmine : slot ∈ m.stamped) :
      Moves w token call m (w.dirs.erase slot) ⟨m.stamped.filter (· ≠ slot), m.fresh⟩
  | reclaimed (slot : Slot) (hfree : ¬ Owned w slot) : Moves w token call m (w.dirs.erase slot) m

variable {o : Call} {s slot : Slot} {x : Choice} {r : Running}

theorem answer_mkdirSlot (h : answer w x (.mkdirSlot slot) = .done) : w.dirs.get slot = none := by
  simp only [answer] at h
  by_cases hthrows : x.throws = true
  · rw [if_pos hthrows] at h
    cases h
  · rw [if_neg hthrows] at h
    by_cases hthere : (w.dirs.get slot).isSome = true
    · rw [if_pos hthere] at h
      cases h
    · rwa [Bool.not_eq_true, Option.isSome_eq_false_iff, Option.isNone_iff_eq_none] at hthere

theorem answer_rm {why : Removal} (h : answer w x (.rm why slot) = .done) : x.throws = false := by
  simp only [answer] at h
  by_cases hthrows : x.throws = true
  · rw [if_pos hthrows] at h
    cases h
  · rwa [Bool.not_eq_true] at hthrows

theorem perform_moves (howes : Owes token r.mine o) (hheed : Heeded w r x o) :
    Moves w token r.call r.mine (effect w.dirs r.call o (answer w x o)) (r.mine.next o (answer w x o)) := by
  cases o with
  | mkdirSlot slot =>
    cases ha : answer w x (.mkdirSlot slot) with
    | done => exact .made slot howes (answer_mkdirSlot ha)
    | _ => exact .nothing
  | writeOwner slot owner =>
    cases ha : answer w x (.writeOwner slot owner) with
    | done => exact .written slot owner howes.1 howes.2
    | _ => exact .nothing
  | rm why slot =>
    cases ha : answer w x (.rm why slot) with
    | done =>
      have hthrows := answer_rm ha
      cases why with
      | reclaim => exact .reclaimed slot (hheed.1 hthrows)
      | scan => exact .reclaimed slot (hheed hthrows)
      | unwritten => exact .undone slot howes
      | release => exact .released slot howes
    | _ => cases why <;> exact .nothing
  | _ => exact .nothing

structure Backed (dirs : OrdMap Slot Dir) (call : Nat) (slots : List Slot) : Prop where
  nodup : slots.Nodup
  made : ∀ s ∈ slots, ∃ dir, dirs.get s = some dir ∧ dir.call = call

/-- No directory an acquisition made is missing from its note, and those noted as written have its owner. -/
structure Accounted (dirs : OrdMap Slot Dir) (token : String) (call : Nat) (m : Mine) : Prop where
  stamped : ∀ s ∈ m.stamped, ∃ dir owner, dirs.get s = some dir ∧ dir.owner = some owner ∧ owner.token = token
  noted : ∀ s dir, dirs.get s = some dir → dir.call = call → s ∈ m.all

variable {dirs : OrdMap Slot Dir} {m' : Mine}

theorem Moves.keeps (h : Moves w token call m dirs m') (hnot : s ∉ m.all) (howned : Owned w s)
    (hthere : ∃ dir, w.dirs.get s = some dir) : dirs.get s = w.dirs.get s := by
  have hne : ∀ slot ∈ m.all, s ≠ slot := by
    rintro slot hslot rfl
    exact hnot hslot
  cases h with
  | nothing => rfl
  | made slot hfresh hnew =>
    apply OrdMap.get_set_ne
    rintro rfl
    obtain ⟨dir, hdir⟩ := hthere
    rw [hnew] at hdir
    cases hdir
  | written slot owner hfresh htoken =>
    rw [OrdMap.get_modify, if_neg (hne slot (by simp [Mine.all, hfresh]))]
  | undone slot hfresh => rw [OrdMap.get_erase, if_neg (hne slot (by simp [Mine.all, hfresh]))]
  | released slot hmine => rw [OrdMap.get_erase, if_neg (hne slot (by simp [Mine.all, hmine]))]
  | reclaimed slot hfree =>
    rw [OrdMap.get_erase, if_neg]
    rintro rfl
    exact hfree howned

theorem Moves.origin (h : Moves w token call m dirs m') {dir : Dir} (hdir : dirs.get s = some dir) :
    dir.call = call ∨ ∃ before, w.dirs.get s = some before ∧ before.call = dir.call := by
  have herased : ∀ slot, (w.dirs.erase slot).get s = some dir → ∃ before, w.dirs.get s = some before ∧ before.call = dir.call := by
    intro slot hs
    rw [OrdMap.get_erase] at hs
    split at hs
    · cases hs
    · exact ⟨dir, hs, rfl⟩
  cases h with
  | nothing => exact .inr ⟨dir, hdir, rfl⟩
  | made slot hfresh hnew =>
    rw [OrdMap.get_set] at hdir
    split at hdir
    · cases hdir
      exact .inl rfl
    · exact .inr ⟨dir, hdir, rfl⟩
  | written slot owner hfresh htoken =>
    rw [OrdMap.get_modify] at hdir
    split at hdir
    · obtain ⟨before, hbefore, rfl⟩ := Option.map_eq_some_iff.1 hdir
      exact .inr ⟨before, hbefore, rfl⟩
    · exact .inr ⟨dir, hdir, rfl⟩
  | undone slot hfresh => exact .inr (herased slot hdir)
  | released slot hmine => exact .inr (herased slot hdir)
  | reclaimed slot hfree => exact .inr (herased slot hdir)

theorem Mine.all_of_fresh_none {m : Mine} (h : m.fresh = none) : m.all = m.stamped := by
  unfold Mine.all
  rw [h, Option.toList_none, List.append_nil]

theorem Mine.all_of_fresh_some {m : Mine} (h : m.fresh = some slot) : m.all = m.stamped ++ [slot] := by
  unfold Mine.all
  rw [h, Option.toList_some]

theorem Backed.erase {slots rest : List Slot} (h : Backed w.dirs call slots) (hsub : rest.Sublist slots)
    (hnot : slot ∉ rest) : Backed (w.dirs.erase slot) call rest := by
  refine ⟨h.nodup.sublist hsub, fun s hs => ?_⟩
  obtain ⟨dir, hdir, hcall⟩ := h.made s (hsub.subset hs)
  refine ⟨dir, ?_, hcall⟩
  rw [OrdMap.get_erase, if_neg]
  · exact hdir
  · rintro rfl
    exact hnot hs

theorem Moves.backed (h : Moves w token call m dirs m') (hbacked : Backed w.dirs call m.all) (howned : ∀ s ∈ m.all, Owned w s) :
    Backed dirs call m'.all := by
  cases h with
  | nothing => exact hbacked
  | made slot hfresh hnew =>
    rw [Mine.all_of_fresh_none hfresh] at hbacked
    have hnot : slot ∉ m.stamped := by
      intro hs
      obtain ⟨dir, hdir, -⟩ := hbacked.made slot hs
      rw [hnew] at hdir
      cases hdir
    rw [Mine.all_of_fresh_some rfl]
    constructor
    · rw [List.nodup_append]
      refine ⟨hbacked.nodup, by simp, fun s hs t ht => ?_⟩
      rw [List.mem_singleton] at ht
      rintro rfl
      rw [ht] at hs
      exact hnot hs
    · intro s hs
      rcases List.mem_append.1 hs with hs | hs
      · obtain ⟨dir, hdir, hcall⟩ := hbacked.made s hs
        refine ⟨dir, ?_, hcall⟩
        rw [OrdMap.get_set_ne]
        · exact hdir
        · rintro rfl
          exact hnot hs
      · rw [List.mem_singleton] at hs
        rw [hs]
        exact ⟨_, OrdMap.get_set_self _ _ _, rfl⟩
  | written slot owner hfresh htoken =>
    rw [Mine.all_of_fresh_some hfresh] at hbacked
    rw [Mine.all_of_fresh_none rfl]
    refine ⟨hbacked.nodup, fun s hs => ?_⟩
    obtain ⟨dir, hdir, hcall⟩ := hbacked.made s hs
    rw [OrdMap.get_modify]
    split
    · rw [hdir]
      exact ⟨_, rfl, hcall⟩
    · exact ⟨dir, hdir, hcall⟩
  | undone slot hfresh =>
    rw [Mine.all_of_fresh_some hfresh] at hbacked
    rw [Mine.all_of_fresh_none rfl]
    apply hbacked.erase (List.sublist_append_left _ _)
    intro hs
    exact (List.nodup_append.1 hbacked.nodup).2.2 slot hs slot (by simp) rfl
  | released slot hmine =>
    have hsub : (Mine.all ⟨m.stamped.filter (· ≠ slot), m.fresh⟩).Sublist m.all :=
      List.filter_sublist.append (List.Sublist.refl m.fresh.toList)
    apply hbacked.erase hsub
    intro hs
    rcases List.mem_append.1 hs with hs | hs
    · simpa using (List.mem_filter.1 hs).2
    · exact (List.nodup_append.1 hbacked.nodup).2.2 slot hmine slot hs rfl
  | reclaimed slot hfree =>
    apply hbacked.erase (List.Sublist.refl m.all)
    intro hs
    exact hfree (howned slot hs)

theorem Moves.accounted (h : Moves w token call m dirs m') (hbacked : Backed w.dirs call m.all)
    (howned : ∀ s ∈ m.all, Owned w s) (hacc : Accounted w.dirs token call m) : Accounted dirs token call m' := by
  have hbacked' := h.backed hbacked howned
  constructor
  · -- an owner once written stays as long as its directory
    have herased : ∀ slot s, s ≠ slot → s ∈ m.stamped →
        ∃ dir owner, (w.dirs.erase slot).get s = some dir ∧ dir.owner = some owner ∧ owner.token = token := by
      intro slot s hne hs
      rw [OrdMap.get_erase, if_neg hne]
      exact hacc.stamped s hs
    cases h with
    | nothing => exact hacc.stamped
    | made slot hfresh hnew =>
      intro s hs
      obtain ⟨dir, owner, hdir, howner⟩ := hacc.stamped s hs
      refine ⟨dir, owner, ?_, howner⟩
      rw [OrdMap.get_set_ne]
      · exact hdir
      · rintro rfl
        rw [hnew] at hdir
        cases hdir
    | written slot owner hfresh htoken =>
      intro s hs
      rw [OrdMap.get_modify]
      by_cases hslot : s = slot
      · have hin : s ∈ m.all := by
          rw [Mine.all_of_fresh_some hfresh, hslot]
          simp
        obtain ⟨dir, hdir, -⟩ := hbacked.made s hin
        rw [if_pos hslot, hdir]
        exact ⟨_, owner, rfl, rfl, htoken⟩
      · rw [if_neg hslot]
        rcases List.mem_append.1 hs with hs | hs
        · exact hacc.stamped s hs
        · rw [List.mem_singleton] at hs
          exact absurd hs hslot
    | undone slot hfresh =>
      intro s hs
      apply herased slot s _ hs
      rintro rfl
      rw [Mine.all_of_fresh_some hfresh] at hbacked
      exact (List.nodup_append.1 hbacked.nodup).2.2 s hs s (by simp) rfl
    | released slot hmine =>
      intro s hs
      obtain ⟨hs, hne⟩ := List.mem_filter.1 hs
      exact herased slot s (by simpa using hne) hs
    | reclaimed slot hfree =>
      intro s hs
      apply herased slot s _ hs
      rintro rfl
      exact hfree (howned s (List.mem_append_left _ hs))
  · have hgone : ∀ slot s dir, (w.dirs.erase slot).get s = some dir → dir.call = call → s ∈ m.all ∧ s ≠ slot := by
      intro slot s dir hdir hcall
      rw [OrdMap.get_erase] at hdir
      split at hdir
      · cases hdir
      · rename_i hne
        exact ⟨hacc.noted s dir hdir hcall, hne⟩
    intro s dir hdir hcall
    cases h with
    | nothing => exact hacc.noted s dir hdir hcall
    | made slot hfresh hnew =>
      rw [Mine.all_of_fresh_some rfl]
      rw [OrdMap.get_set] at hdir
      split at hdir
      · rename_i hslot
        simp [hslot]
      · have hin := hacc.noted s dir hdir hcall
        rw [Mine.all_of_fresh_none hfresh] at hin
        exact List.mem_append_left _ hin
    | written slot owner hfresh htoken =>
      have hall : (⟨m.stamped ++ [slot], none⟩ : Mine).all = m.all := by
        rw [Mine.all_of_fresh_none rfl, Mine.all_of_fresh_some hfresh]
      rw [hall]
      rw [OrdMap.get_modify] at hdir
      split at hdir
      · obtain ⟨before, hbefore, rfl⟩ := Option.map_eq_some_iff.1 hdir
        exact hacc.noted s before hbefore hcall
      · exact hacc.noted s dir hdir hcall
    | undone slot hfresh =>
      obtain ⟨hin, hne⟩ := hgone slot s dir hdir hcall
      rw [Mine.all_of_fresh_some hfresh] at hin
      rw [Mine.all_of_fresh_none rfl]
      rcases List.mem_append.1 hin with hin | hin
      · exact hin
      · rw [List.mem_singleton] at hin
        exact absurd hin hne
    | released slot hmine =>
      obtain ⟨hin, hne⟩ := hgone slot s dir hdir hcall
      rcases List.mem_append.1 hin with hin | hin
      · exact List.mem_append_left _ (List.mem_filter.2 ⟨hin, by simp [hne]⟩)
      · exact List.mem_append_right _ hin
    | reclaimed slot hfree => exact (hgone slot s dir hdir hcall).1

/-- **Heeded primitives answer carefully.** -/
theorem answer_careful {request : AdmissionRequest} {code : Code Grant}
    (hop : r.operation = .acquiring request code) (hheed : Heeded w r x o) (hbacked : Backed w.dirs r.call r.mine.all)
    (hacc : Accounted w.dirs token r.call r.mine) : Careful token r.mine o (answer w x o) := by
  have hrm : ∀ why slot, x.throws = false → answer w x (.rm why slot) = .done := by
    intro why slot hthrows
    simp only [answer]
    rw [if_neg]
    rw [hthrows]
    simp
  cases o with
  | mkdirRoot root =>
    by_cases hthrows : x.throws = true
    · exact .inr (hheed hthrows)
    · left
      simp only [answer]
      rw [if_neg hthrows]
  | mkdirSlot slot =>
    intro hdone hs
    obtain ⟨dir, hdir, -⟩ := hbacked.made slot (List.mem_append_left _ hs)
    rw [answer_mkdirSlot hdone] at hdir
    cases hdir
  | readOwner releasing slot =>
    cases releasing with
    | false => trivial
    | true =>
      intro hs
      have hthrows : x.throws = false := hheed ⟨request, code, hop⟩
      obtain ⟨dir, owner, hdir, howner, htoken⟩ := hacc.stamped slot hs
      refine ⟨owner, ?_, htoken⟩
      simp only [answer]
      rw [if_neg (by rw [hthrows]; simp), hdir, Option.bind_some, howner]
  | rm why slot =>
    cases why with
    | reclaim =>
      by_cases hthrows : x.throws = true
      · exact .inr (hheed.2 hthrows)
      · rw [Bool.not_eq_true] at hthrows
        exact .inl (hrm _ slot hthrows)
    | scan => trivial
    | unwritten => exact hrm _ slot hheed
    | release => exact hrm _ slot (hheed ⟨request, code, hop⟩)
  | _ => trivial

end Moves

end Admission
end Wollipog

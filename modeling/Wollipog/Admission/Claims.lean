import Wollipog.Admission.Acquire
/-!
# Claims — what an acquisition holds between its primitives

`Mine` notes the directories an operation has made and not removed.  Under `careful` answers a failed acquisition ends
with an empty note, and a granted one with exactly the slots it returns.
-/
namespace Wollipog
namespace Admission

open Resume

/-- The directories an operation has made, or releases: those with its owner file, and the one still without. -/
structure Mine where
  stamped : List Slot
  fresh : Option Slot
deriving DecidableEq, Repr

namespace Mine

def nothing : Mine := ⟨[], none⟩

def all (m : Mine) : List Slot := m.stamped ++ m.fresh.toList

def next (m : Mine) : Call → Answer → Mine
  | .mkdirSlot slot, .done => ⟨m.stamped, some slot⟩
  | .writeOwner slot _, .done => ⟨m.stamped ++ [slot], none⟩
  | .rm .unwritten _, .done => ⟨m.stamped, none⟩
  | .rm .release slot, .done => ⟨m.stamped.filter (· ≠ slot), m.fresh⟩
  | _, _ => m

end Mine

/-- What an operation owes before a primitive: it removes, and writes to, only what it made. -/
def Owes (token : String) (m : Mine) : Call → Prop
  | .mkdirSlot _ => m.fresh = none
  | .writeOwner slot owner => m.fresh = some slot ∧ owner.token = token
  | .rm .unwritten slot => m.fresh = some slot
  | .rm .release slot => slot ∈ m.stamped
  | _ => True

/-- Answers that leave no directory behind: what throws has claimed nothing or is caught. -/
def Careful (token : String) (m : Mine) : Call → Answer → Prop
  | .mkdirRoot _, a => a = .done ∨ m.stamped = []
  | .mkdirSlot slot, a => a = .done → slot ∉ m.stamped
  | .rm .reclaim _, a => a = .done ∨ m.stamped = []
  | .rm .unwritten _, a => a = .done
  | .rm .release _, a => a = .done
  | .readOwner true slot, a => slot ∈ m.stamped → ∃ owner, a = .owner owner ∧ owner.token = token
  | _, _ => True

def careful (token : String) : Rules Call Answer Mine where
  pre := Owes token
  answers := Careful token
  next := Mine.next

def careless (token : String) : Rules Call Answer Mine where
  pre := Owes token
  answers _ _ _ := True
  next := Mine.next

variable {token : String} {m : Mine}

def Kept (m : Mine) {α : Type} (_ : Except Thrown α) (m' : Mine) : Prop := m' = m

section Reads

theorem mkdirRoot_spec (root : Root) :
    wp (careful token) (fun r m' => m' = m ∧ ((∃ a, r = .ok a) ∨ m.stamped = [])) (mkdirRoot root) m := by
  apply wp_perform_bind trivial
  intro a ha
  rcases ha with rfl | hnone
  · exact ⟨rfl, .inl ⟨(), rfl⟩⟩
  · cases a <;> exact ⟨rfl, .inr hnone⟩

theorem readOwner_spec (slot : Slot) : wp (careful token) (Kept m) (readOwner false slot) m := by
  apply wp_perform_bind trivial
  intro a _
  cases a <;> exact rfl

theorem statYoung_spec (slot : Slot) : wp (careful token) (Kept m) (statYoung slot) m := by
  apply wp_perform_bind trivial
  intro a _
  cases a <;> exact rfl

theorem readdir_spec (root : Root) : wp (careful token) (Kept m) (readdir root) m := by
  apply wp_perform_bind trivial
  intro a _
  cases a <;> exact rfl

theorem processAlive_spec (pid : Int) :
    wp (careful token) (fun r m' => m' = m ∧ ∃ alive, r = .ok alive) (processAlive pid) m := by
  unfold processAlive
  split
  · exact ⟨rfl, _, rfl⟩
  · apply wp_perform_bind trivial
    intro a _
    cases a <;> exact ⟨rfl, _, rfl⟩

end Reads

section Inspection

theorem rm_inspected_spec (why : Removal) (hwhy : why = .reclaim ∨ why = .scan) (slot : Slot) :
    wp (careful token) (fun r m' => m' = m ∧ (why = .reclaim → (∃ a, r = .ok a) ∨ m.stamped = [])) (rm why slot) m := by
  rcases hwhy with rfl | rfl
  · apply wp_perform_bind trivial
    intro a ha
    rcases ha with rfl | hnone
    · exact ⟨rfl, fun _ => .inl ⟨(), rfl⟩⟩
    · cases a <;> exact ⟨rfl, fun _ => .inr hnone⟩
  · apply wp_perform_bind trivial
    intro a _
    cases a <;> exact ⟨rfl, fun h => by cases h⟩

theorem inspectSlot_spec (why : Removal) (hwhy : why = .reclaim ∨ why = .scan) (slot : Slot) :
    wp (careful token) (fun r m' => m' = m ∧ (why = .reclaim → (∃ a, r = .ok a) ∨ m.stamped = []))
      (inspectSlot why slot) m := by
  have hremoved : wp (careful token) (fun r m' => m' = m ∧ (why = .reclaim → (∃ a, r = .ok a) ∨ m.stamped = []))
      (do rm why slot; pure false : Code Bool) m := by
    apply wp_bind
    apply wp_mono (rm_inspected_spec why hwhy slot)
    rintro r m' ⟨rfl, hthrow⟩
    cases r with
    | ok a => exact ⟨rfl, fun _ => .inl ⟨false, rfl⟩⟩
    | error e =>
      refine ⟨rfl, fun h => .inr ?_⟩
      rcases hthrow h with ⟨a, ha⟩ | hnone
      · cases ha
      · exact hnone
  have hread : wp (careful token) (Kept m) (do processAlive (← readOwner false slot).pid : Code Bool) m := by
    apply wp_bind
    apply wp_mono (readOwner_spec slot)
    rintro r m' rfl
    cases r with
    | error e => exact rfl
    | ok owner => exact wp_mono (processAlive_spec owner.pid) (fun r m'' h => h.1)
  unfold inspectSlot
  apply wp_bind
  apply wp_attempt
  apply wp_mono hread
  rintro r m' rfl
  cases r with
  | ok alive =>
    cases alive with
    | true => exact ⟨rfl, fun _ => .inl ⟨true, rfl⟩⟩
    | false => exact hremoved
  | error e =>
    apply wp_bind
    apply wp_attempt
    apply wp_mono (statYoung_spec slot)
    rintro r m'' rfl
    cases r with
    | error e => exact ⟨rfl, fun _ => .inl ⟨false, rfl⟩⟩
    | ok young =>
      cases young with
      | true => exact ⟨rfl, fun _ => .inl ⟨true, rfl⟩⟩
      | false => exact hremoved

theorem reclaimIfStale_spec (slot : Slot) :
    wp (careful token) (fun r m' => m' = m ∧ ((∃ a, r = .ok a) ∨ m.stamped = [])) (reclaimIfStale slot) m := by
  apply wp_bind
  apply wp_mono (inspectSlot_spec .reclaim (.inl rfl) slot)
  rintro r m' ⟨rfl, hthrow⟩
  cases r with
  | ok used => exact ⟨rfl, .inl ⟨!used, rfl⟩⟩
  | error e =>
    refine ⟨rfl, .inr ?_⟩
    rcases hthrow rfl with ⟨a, ha⟩ | hnone
    · cases ha
    · exact hnone

theorem countUsed_spec (slots : List Slot) : wp (careful token) (Kept m) (countUsed slots) m := by
  induction slots with
  | nil => exact rfl
  | cons slot slots ih =>
    apply wp_bind
    apply wp_mono (inspectSlot_spec .scan (.inr rfl) slot)
    rintro r m' ⟨rfl, -⟩
    cases r with
    | error e => exact rfl
    | ok used =>
      apply wp_bind
      apply wp_mono ih
      rintro r m'' rfl
      cases r <;> exact rfl

theorem usedSlots_spec (root : Root) : wp (careful token) (fun r m' => m' = m ∧ ∃ used, r = .ok used) (usedSlots root) m := by
  apply wp_tryCatch
  have hscan : wp (careful token) (Kept m) (do countUsed (← readdir root) : Code Nat) m := by
    apply wp_bind
    apply wp_mono (readdir_spec root)
    rintro r m' rfl
    cases r with
    | error e => exact rfl
    | ok slots => exact countUsed_spec slots
  apply wp_mono hscan
  rintro r m' rfl
  cases r with
  | ok used => exact ⟨rfl, used, rfl⟩
  | error e => exact ⟨rfl, 0, rfl⟩

end Inspection

section Release

variable (box : BoxAdmission)

theorem releaseSlot_spec (slot : Slot) (hmine : slot ∈ m.stamped) :
    wp (careful box.token) (fun r m' => r = .ok () ∧ m' = ⟨m.stamped.filter (· ≠ slot), m.fresh⟩)
      (releaseSlot box slot) m := by
  apply wp_tryCatch
  apply wp_bind
  apply wp_perform_bind trivial
  intro a ha
  obtain ⟨owner, rfl, htoken⟩ := ha hmine
  change wp (careful box.token) _ (if owner.token = box.token then rm .release slot else pure ()) m
  rw [if_pos htoken]
  apply wp_perform_bind hmine
  intro a ha
  cases ha
  exact ⟨rfl, rfl⟩

/-- **What is released leaves the note, the rest stays.** -/
theorem releaseSlots_spec : ∀ (slots pre post : List Slot), (pre ++ slots ++ post).Nodup →
    wp (careful box.token) (fun r m' => r = .ok () ∧ m' = ⟨pre ++ post, none⟩) (releaseSlots box slots)
      ⟨pre ++ slots ++ post, none⟩
  | [], pre, post, _ => by
    refine ⟨rfl, ?_⟩
    rw [List.append_nil]
  | slot :: slots, pre, post, hnodup => by
    have hsplit : pre ++ slot :: slots ++ post = pre ++ slot :: (slots ++ post) := by simp
    rw [hsplit] at hnodup ⊢
    obtain ⟨hnot, hrest⟩ := List.nodup_middle.1 hnodup |> List.nodup_cons.1
    have hfilter : (pre ++ slot :: (slots ++ post)).filter (· ≠ slot) = pre ++ slots ++ post := by
      rw [List.filter_append, List.filter_cons_of_neg (by simp), ← List.filter_append, List.append_assoc]
      apply List.filter_eq_self.2
      intro s hs
      simp only [ne_eq, decide_eq_true_eq]
      rintro rfl
      exact hnot hs
    apply wp_bind
    apply wp_mono (releaseSlot_spec box slot (by simp))
    rintro r m' ⟨rfl, rfl⟩
    simp only [hfilter]
    apply releaseSlots_spec slots pre post
    rw [List.append_assoc]
    exact hrest

theorem releaseSlots_last (L S : List Slot) (hnodup : (L ++ S).Nodup) :
    wp (careful box.token) (fun r m' => r = .ok () ∧ m' = ⟨L, none⟩) (releaseSlots box S) ⟨L ++ S, none⟩ := by
  have hrelease := releaseSlots_spec box S L [] (by rwa [List.append_nil])
  rwa [List.append_nil, List.append_nil] at hrelease

theorem releaseSlots_all (L : List Slot) (hnodup : L.Nodup) :
    wp (careful box.token) (fun r m' => r = .ok () ∧ m' = Mine.nothing) (releaseSlots box L) ⟨L, none⟩ :=
  releaseSlots_last box [] L hnodup

theorem releaseSlots_owes (slots : List Slot) (hnodup : slots.Nodup) :
    ∀ m : Mine, slots ⊆ m.stamped → wp (careless box.token) (fun _ _ => True) (releaseSlots box slots) m := by
  induction slots with
  | nil => exact fun _ _ => trivial
  | cons slot slots ih =>
    obtain ⟨hnot, hrest⟩ := List.nodup_cons.1 hnodup
    intro m hsub
    have hmine : slot ∈ m.stamped := hsub (by simp)
    have hkeep : slots ⊆ m.stamped := fun s hs => hsub (by simp [hs])
    have hfilter : slots ⊆ m.stamped.filter (· ≠ slot) := by
      intro s hs
      rw [List.mem_filter]
      refine ⟨hkeep hs, ?_⟩
      simp only [ne_eq, decide_eq_true_eq]
      rintro rfl
      exact hnot hs
    have hone : wp (careless box.token) (fun _ m' => slots ⊆ m'.stamped) (releaseSlot box slot) m := by
      apply wp_tryCatch
      apply wp_bind
      apply wp_perform_bind trivial
      intro a _
      cases a with
      | owner owner =>
        change wp (careless box.token) _ (if owner.token = box.token then rm .release slot else pure ()) m
        split
        · apply wp_perform_bind hmine
          intro a _
          cases a with
          | done => exact hfilter
          | _ => exact hkeep
        · exact hkeep
      | _ => exact hkeep
    apply wp_bind
    apply wp_mono hone
    intro r m' hsub'
    cases r with
    | error e => trivial
    | ok u => exact ih hrest m' hsub'

end Release

section Claim

variable {L : List Slot}

theorem makeSlot_spec (owner : SlotOwner) (howner : owner.token = token) (slot : Slot) :
    wp (careful token) (fun r m' => (r = .ok () ∧ m' = ⟨L ++ [slot], none⟩ ∧ slot ∉ L) ∨ ∃ e, r = .error e ∧ m' = ⟨L, none⟩)
      (makeSlot owner slot) ⟨L, none⟩ := by
  apply wp_bind
  apply wp_perform_bind rfl
  intro a hnew
  cases a with
  | done =>
    apply wp_tryCatch
    have howes : Owes token ⟨L, some slot⟩ (.writeOwner slot owner) := ⟨rfl, howner⟩
    apply wp_perform_bind howes
    intro a _
    -- the directory is there without an owner: it is removed, and the note is as before
    have hundo : ∀ e : Thrown, wp (careful token)
        (fun r m' => (r = .ok () ∧ m' = ⟨L ++ [slot], none⟩ ∧ slot ∉ L) ∨ ∃ e, r = .error e ∧ m' = ⟨L, none⟩)
        (do rm .unwritten slot; Program.throw e : Code Unit) ⟨L, some slot⟩ := by
      intro e
      apply wp_bind
      apply wp_perform_bind rfl
      intro a ha
      cases ha
      exact .inr ⟨e, rfl, rfl⟩
    cases a with
    | done => exact .inl ⟨rfl, rfl, hnew rfl⟩
    | _ => exact hundo _
  | _ => exact .inr ⟨_, rfl, rfl⟩

inductive Attempted (L : List Slot) (slot : Slot) : Except Thrown Bool → Mine → Prop
  | claimed (hnew : slot ∉ L) : Attempted L slot (.ok true) ⟨L ++ [slot], none⟩
  | taken : Attempted L slot (.ok false) ⟨L, none⟩
  | threw (e : Thrown) (hnone : L = []) : Attempted L slot (.error e) ⟨L, none⟩

theorem claimSlot_spec (owner : SlotOwner) (howner : owner.token = token) (slot : Slot) (attempts : Nat) :
    wp (careful token) (Attempted L slot) (claimSlot owner slot attempts) ⟨L, none⟩ := by
  induction attempts with
  | zero => exact .taken
  | succ attempts ih =>
    apply wp_tryCatch
    apply wp_bind
    apply wp_mono (makeSlot_spec owner howner slot)
    rintro r m' (⟨rfl, rfl, hnew⟩ | ⟨e, rfl, rfl⟩)
    · exact .claimed hnew
    · change wp (careful token) _ (if e = .eexist then _ else _) _
      split
      · apply wp_bind
        apply wp_mono (reclaimIfStale_spec slot)
        rintro r m' ⟨rfl, hthrow⟩
        cases r with
        | ok free =>
          cases free with
          | true => exact ih
          | false => exact .taken
        | error e =>
          apply Attempted.threw
          rcases hthrow with ⟨a, ha⟩ | hnone
          · cases ha
          · exact hnone
      · exact .taken

inductive Collected (L : List Slot) (root : Root) (bound : Nat) : Except Thrown (List Slot) → Mine → Prop
  | some (S : List Slot) (hnodup : (L ++ S).Nodup) (hin : ∀ s ∈ S, s.root = root ∧ s.index < bound) :
      Collected L root bound (.ok S) ⟨L ++ S, none⟩
  | threw (e : Thrown) (hnone : L = []) : Collected L root bound (.error e) ⟨L, none⟩

theorem claimFrom_spec (owner : SlotOwner) (howner : owner.token = token) (root : Root) (count : Nat) (left : Nat) :
    ∀ (index : Nat) (C : List Slot), (L ++ C).Nodup → (∀ s ∈ C, s.root = root ∧ s.index < index) →
      wp (careful token) (Collected L root (index + left)) (claimFrom owner root count left index C) ⟨L ++ C, none⟩ := by
  induction left with
  | zero => exact fun index C hnodup hin => .some C hnodup hin
  | succ left ih =>
    intro index C hnodup hin
    have hwide : ∀ s ∈ C, s.root = root ∧ s.index < index + 1 := fun s hs => ⟨(hin s hs).1, by have := (hin s hs).2; omega⟩
    have hbound : index + (left + 1) = index + 1 + left := by omega
    unfold claimFrom
    split
    · apply wp_bind
      apply wp_mono (claimSlot_spec owner howner ⟨root, index⟩ 2)
      intro r m' hr
      rw [hbound]
      cases hr with
      | claimed hnew =>
        have hnodup' : (L ++ (C ++ [(⟨root, index⟩ : Slot)])).Nodup := by
          rw [← List.append_assoc, List.nodup_append]
          refine ⟨hnodup, by simp, fun s hs t ht => ?_⟩
          rw [List.mem_singleton] at ht
          rintro rfl
          rw [ht] at hs
          exact hnew hs
        have hin' : ∀ s ∈ C ++ [(⟨root, index⟩ : Slot)], s.root = root ∧ s.index < index + 1 := by
          intro s hs
          rcases List.mem_append.1 hs with hs | hs
          · exact hwide s hs
          · rw [List.mem_singleton] at hs
            subst hs
            exact ⟨rfl, by simp⟩
        have hnext := ih (index + 1) (C ++ [⟨root, index⟩]) hnodup' hin'
        rw [← List.append_assoc] at hnext
        exact hnext
      | taken => exact ih (index + 1) C hnodup hwide
      | threw e hnone =>
        obtain ⟨rfl, rfl⟩ := List.append_eq_nil_iff.1 hnone
        exact .threw e rfl
    · apply Collected.some C hnodup
      intro s hs
      exact ⟨(hin s hs).1, by have := (hin s hs).2; omega⟩

/-- What a claim of `count` slots ends with. -/
inductive Claimed (L : List Slot) (root : Root) (limit : Int) (count : Nat) : Except Thrown (Option (List Slot)) → Mine → Prop
  | some (S : List Slot) (hnodup : (L ++ S).Nodup) (hcount : S.length = count)
      (hin : ∀ s ∈ S, s.root = root ∧ s.index < limit.toNat) : Claimed L root limit count (.ok (some S)) ⟨L ++ S, none⟩
  | none : Claimed L root limit count (.ok none) ⟨L, .none⟩
  | threw (e : Thrown) (hnone : L = []) : Claimed L root limit count (.error e) ⟨L, .none⟩

variable (box : BoxAdmission) (request : AdmissionRequest)

/-- **All of the slots asked for, or none.** -/
theorem claimSlots_spec (root : Root) (limit : Int) (count : Nat) (hnodup : L.Nodup) :
    wp (careful box.token) (Claimed L root limit count) (claimSlots box request root limit count) ⟨L, none⟩ := by
  apply wp_bind
  have hstart : (L ++ []).Nodup := by rwa [List.append_nil]
  have hloop := claimFrom_spec (box.owner request) rfl root count limit.toNat 0 [] hstart (by simp)
  rw [List.append_nil, Nat.zero_add] at hloop
  apply wp_mono hloop
  intro r m' hr
  cases hr with
  | some S hS hin =>
    change wp (careful box.token) _ (if S.length = count then pure (some S) else _) _
    split
    · rename_i hcount
      exact .some S hS hcount hin
    · apply wp_bind
      apply wp_mono (releaseSlots_last box L S hS)
      rintro r m' ⟨rfl, rfl⟩
      exact .none
  | threw e hnone => exact .threw e hnone

def Ended (P : List Slot → Prop) : Except Thrown Grant → Mine → Prop
  | .ok (.leased S), m => m = ⟨S, none⟩ ∧ S.Nodup ∧ P S
  | .ok .refused, m => m = Mine.nothing
  | .error _, m => m = Mine.nothing

/-- **One more root**: where the claim of it fails, nothing stays claimed. -/
theorem claimRoot_spec {P : List Slot → Prop} (root : Root) (limit : Int) (hnodup : L.Nodup) (rest : List Slot → Code Grant)
    (hrest : ∀ S, (L ++ S).Nodup → S.length = 1 → (∀ s ∈ S, s.root = root ∧ s.index < limit.toNat) →
      wp (careful box.token) (Ended P) (rest S) ⟨L ++ S, none⟩) :
    wp (careful box.token) (Ended P) (claimRoot box request root limit L rest) ⟨L, none⟩ := by
  apply wp_bind
  apply wp_mono (mkdirRoot_spec root)
  rintro r m' ⟨rfl, hthrow⟩
  cases r with
  | error e =>
    rcases hthrow with ⟨a, ha⟩ | hnone
    · cases ha
    · simp only at hnone
      subst hnone
      exact rfl
  | ok u =>
    apply wp_bind
    apply wp_mono (claimSlots_spec box request root limit 1 hnodup)
    intro r m' hr
    cases hr with
    | some S hS hcount hin => exact hrest S hS hcount hin
    | none =>
      apply wp_bind
      apply wp_mono (releaseSlots_all box L hnodup)
      rintro r m' ⟨rfl, rfl⟩
      exact rfl
    | threw e hnone =>
      subst hnone
      exact rfl

structure Grants (claimed : List Slot) (S : List Slot) : Prop where
  keeps : claimed ⊆ S
  units : (S.filter (fun s => s.root = .box)).length = request.weight.toNat
  within : ∀ s ∈ S, s.root = .box → s.index < box.limit

theorem claimCapacity_spec (hnodup : L.Nodup) :
    wp (careful box.token) (Claimed L .box box.limit request.weight.toNat) (claimCapacity box request) ⟨L, none⟩ := by
  apply wp_bind
  apply wp_mono (usedSlots_spec .box)
  rintro r m' ⟨rfl, used, rfl⟩
  change wp (careful box.token) _ (if (used : Int) + request.weight ≤ box.limit then _ else _) _
  split
  · exact claimSlots_spec box request .box box.limit request.weight.toNat hnodup
  · exact .none

theorem acquireCapacity_spec (hnodup : L.Nodup) (hbelow : ∀ s ∈ L, s.root ≠ .box) :
    wp (careful box.token) (Ended (Grants box request L)) (acquireCapacity box request L) ⟨L, none⟩ := by
  apply claimRoot_spec box request .capacityMutation 1 hnodup
  intro M hM hone _
  have hheld : L ++ M ≠ [] := by
    intro hnil
    rw [(List.append_eq_nil_iff.1 hnil).2] at hone
    cases hone
  apply wp_bind
  apply wp_tryFinally
  apply wp_mono (claimCapacity_spec box request hM)
  intro r m' hr
  cases hr with
  | some G hG hcount hin =>
    apply wp_mono (releaseSlots_spec box M L G hG)
    rintro r m' ⟨rfl, rfl⟩
    have hunits : ((L ++ G).filter (fun s => s.root = .box)).length = request.weight.toNat := by
      have hleft : L.filter (fun s => s.root = .box) = [] := by
        apply List.filter_eq_nil_iff.2
        intro s hs
        simp [hbelow s hs]
      have hright : G.filter (fun s => s.root = .box) = G := by
        apply List.filter_eq_self.2
        intro s hs
        simp [(hin s hs).1]
      rw [List.filter_append, hleft, hright, List.nil_append, hcount]
    refine ⟨rfl, ?_, by simp, hunits, ?_⟩
    · exact hG.sublist ((List.sublist_append_left L M).append (List.Sublist.refl G))
    · intro s hs hroot
      rcases List.mem_append.1 hs with hs | hs
      · exact absurd hroot (hbelow s hs)
      · have := (hin s hs).2
        simpa using this
  | none =>
    apply wp_mono (releaseSlots_last box L M hM)
    rintro r m' ⟨rfl, rfl⟩
    apply wp_bind
    apply wp_mono (releaseSlots_all box L hnodup)
    rintro r m' ⟨rfl, rfl⟩
    exact rfl
  | threw e hnone => exact absurd hnone hheld

theorem Ended.mono {P Q : List Slot → Prop} (himp : ∀ S, P S → Q S) {r : Except Thrown Grant} {m : Mine} (h : Ended P r m) :
    Ended Q r m := by
  cases r with
  | error e => exact h
  | ok g =>
    cases g with
    | refused => exact h
    | leased S =>
      obtain ⟨hm, hnodup, hP⟩ := h
      exact ⟨hm, hnodup, himp S hP⟩

theorem Grants.of_append {claimed more S : List Slot} (h : Grants box request (claimed ++ more) S) :
    Grants box request claimed S :=
  ⟨fun _ hs => h.keeps (List.mem_append_left more hs), h.units, h.within⟩

theorem below_append {S : List Slot} {root : Root} {bound : Nat} (hroot : root ≠ .box) (hbelow : ∀ s ∈ L, s.root ≠ .box)
    (hin : ∀ s ∈ S, s.root = root ∧ s.index < bound) : ∀ s ∈ L ++ S, s.root ≠ .box := by
  intro s hs
  rcases List.mem_append.1 hs with hs | hs
  · exact hbelow s hs
  · rw [(hin s hs).1]
    exact hroot

variable (sha256 : String → String)

theorem acquireProvider_spec (hnodup : L.Nodup) (hbelow : ∀ s ∈ L, s.root ≠ .box) :
    wp (careful box.token) (Ended (Grants box request L)) (acquireProvider sha256 box request L) ⟨L, none⟩ := by
  apply claimRoot_spec box request _ _ hnodup
  intro S hS _ hin
  apply wp_mono (acquireCapacity_spec box request hS (below_append (by simp) hbelow hin))
  intro r m hr
  exact hr.mono (fun T hT => hT.of_append)

theorem acquireTarget_spec (hnodup : L.Nodup) (hbelow : ∀ s ∈ L, s.root ≠ .box) :
    wp (careful box.token) (Ended (Grants box request L)) (acquireTarget sha256 box request L) ⟨L, none⟩ := by
  unfold acquireTarget
  split
  · split
    · apply claimRoot_spec box request _ _ hnodup
      intro S hS _ hin
      apply wp_mono (acquireProvider_spec box request sha256 hS (below_append (by simp) hbelow hin))
      intro r m hr
      exact hr.mono (fun T hT => hT.of_append)
    · exact acquireProvider_spec box request sha256 hnodup hbelow
  · exact acquireProvider_spec box request sha256 hnodup hbelow

/-- What a lease holds: one slot of the box for each unit, and its group's only slot. -/
structure Leased (S : List Slot) : Prop where
  units : (S.filter (fun s => s.root = .box)).length = request.weight.toNat
  within : ∀ s ∈ S, s.root = .box → s.index < box.limit
  group : ∀ group, request.exclusiveGroup = some group → group ≠ "" → ⟨.exclusive (sha256 group), 0⟩ ∈ S

/-- **An acquisition ends with a whole lease or with nothing.** -/
theorem acquire_spec : wp (careful box.token) (Ended (Leased box request sha256)) (acquire sha256 box request) Mine.nothing := by
  unfold acquire
  split
  · exact rfl
  unfold acquireExclusive
  have hplain : request.exclusiveGroup = none ∨ request.exclusiveGroup = some "" →
      wp (careful box.token) (Ended (Leased box request sha256)) (acquireTarget sha256 box request []) Mine.nothing := by
    intro hno
    apply wp_mono (acquireTarget_spec box request sha256 List.nodup_nil (by simp))
    intro r m hr
    apply hr.mono
    intro S hS
    refine ⟨hS.units, hS.within, fun group hgroup hne => ?_⟩
    rcases hno with hno | hno
    · rw [hno] at hgroup
      cases hgroup
    · rw [hno] at hgroup
      cases hgroup
      exact absurd rfl hne
  split
  · rename_i group hgroup
    split
    · apply claimRoot_spec box request _ _ List.nodup_nil
      intro S hS hone hin
      obtain ⟨s, rfl⟩ := List.length_eq_one_iff.1 hone
      obtain ⟨hroot, hindex⟩ := hin s (by simp)
      have hs : s = ⟨.exclusive (sha256 group), 0⟩ := by
        obtain ⟨root, index⟩ := s
        simp only at hroot hindex
        have hzero : index = 0 := by
          have hone : (1 : Int).toNat = 1 := rfl
          omega
        rw [hroot, hzero]
      apply wp_mono (acquireTarget_spec box request sha256 hS (below_append (by simp) (by simp) hin))
      intro r m hr
      apply hr.mono
      intro T hT
      refine ⟨hT.units, hT.within, fun group' hgroup' _ => ?_⟩
      rw [hgroup] at hgroup'
      cases hgroup'
      rw [← hs]
      exact hT.keeps (by simp)
    · rename_i hempty
      have hempty' : group = "" := by
        by_contra hne
        exact hempty hne
      rw [hempty'] at hgroup
      exact hplain (.inr hgroup)
  · rename_i hgroup
    exact hplain (.inl hgroup)

end Claim

end Admission
end Wollipog

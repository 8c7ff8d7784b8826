import Wollipog.Admission.Reach
/-!
# Bounded — no slot with two owners, no weight over the limit, nothing left of a failure

The invariant of `Reach` over whole runs, and the two ways out of it: a reclaimer that removes a slot claimed
meanwhile, and a root that cannot be made after slots are claimed.
-/
namespace Wollipog
namespace Admission

variable {sha256 : String → String} {w : World}

section Weight

def units (lease : Lease) : List Nat := (lease.slots.filter (fun s => s.root = .box)).map Slot.index

def World.leases (w : World) : List Lease := w.live.entries.flatMap (fun e => e.2.held.entries.map Prod.snd)

theorem weight_eq (w : World) : w.weight = (w.leases.map (fun lease => lease.request.weight)).sum := by
  unfold World.weight World.leases
  rw [List.map_flatMap, List.flatMap_def, List.sum_flatten, List.map_map]
  congr 1
  apply List.map_congr_left
  intro e _
  rw [Function.comp_apply, List.map_map]
  rfl

theorem holds_of_mem {lease : Lease} (h : lease ∈ w.leases) : ∃ pid sessionId, Holds w pid sessionId lease := by
  obtain ⟨e, he, hin⟩ := List.mem_flatMap.1 h
  obtain ⟨l, hl, rfl⟩ := List.mem_map.1 hin
  exact ⟨e.1, l.1, e.2, OrdMap.get_of_mem he, OrdMap.get_of_mem hl⟩

theorem leases_pairwise (hI : Standing sha256 w) : w.leases.Pairwise (fun a b => ∀ s ∈ a.slots, s ∉ b.slots) := by
  have hshared : ∀ {pid pid' session session' a b s}, Holds w pid session a → Holds w pid' session' b → s ∈ a.slots →
      s ∈ b.slots → pid = pid' ∧ session = session' := by
    rintro pid pid' session session' a b s ⟨p, hp, ha⟩ ⟨p', hp', hb⟩ hs hs'
    obtain ⟨hpid, hwho⟩ := hI.disjoint ⟨p, hp, .lease ha⟩ ⟨p', hp', .lease hb⟩ hs hs'
    exact ⟨hpid, by simpa using hwho⟩
  unfold World.leases
  rw [List.pairwise_flatMap]
  constructor
  · intro e he
    rw [List.pairwise_map]
    have hkeys : e.2.held.entries.Pairwise (fun a b => a.1 ≠ b.1) := List.pairwise_map.1 e.2.held.nodup
    apply hkeys.imp_of_mem
    intro a b ha hb hne s hs hs'
    have hpid := OrdMap.get_of_mem he
    exact hne (hshared ⟨e.2, hpid, OrdMap.get_of_mem ha⟩ ⟨e.2, hpid, OrdMap.get_of_mem hb⟩ hs hs').2
  · have hkeys : w.live.entries.Pairwise (fun a b => a.1 ≠ b.1) := List.pairwise_map.1 w.live.nodup
    apply hkeys.imp_of_mem
    intro e f he hf hne a ha b hb s hs hs'
    obtain ⟨a', ha', rfl⟩ := List.mem_map.1 ha
    obtain ⟨b', hb', rfl⟩ := List.mem_map.1 hb
    exact hne (hshared ⟨e.2, OrdMap.get_of_mem he, OrdMap.get_of_mem ha'⟩ ⟨f.2, OrdMap.get_of_mem hf, OrdMap.get_of_mem hb'⟩
      hs hs').1

theorem mem_units {lease : Lease} {i : Nat} : i ∈ units lease ↔ (⟨.box, i⟩ : Slot) ∈ lease.slots := by
  unfold units
  rw [List.mem_map]
  constructor
  · rintro ⟨s, hs, rfl⟩
    obtain ⟨hin, hroot⟩ := List.mem_filter.1 hs
    rw [decide_eq_true_eq] at hroot
    rw [← hroot]
    exact hin
  · intro hin
    exact ⟨⟨.box, i⟩, List.mem_filter.2 ⟨hin, by simp⟩, rfl⟩

theorem units_nodup {lease : Lease} (h : lease.slots.Nodup) : (units lease).Nodup := by
  unfold units
  apply List.Nodup.map_on
  · intro s hs t ht hindex
    have hs' := (List.mem_filter.1 hs).2
    have ht' := (List.mem_filter.1 ht).2
    rw [decide_eq_true_eq] at hs' ht'
    cases s
    cases t
    simp only at hs' ht' hindex
    rw [hs', ht', hindex]
  · exact h.filter _

/-- **The weight is within the limit**: every unit is a slot of its own, below the highest limit. -/
theorem Standing.weight_le (hI : Standing sha256 w) : w.weight ≤ w.highest := by
  have hnodup : (w.leases.flatMap units).Nodup := by
    rw [List.nodup_flatMap]
    constructor
    · intro lease hlease
      obtain ⟨pid, session, p, hp, hheld⟩ := holds_of_mem hlease
      exact units_nodup (hI.backed ⟨p, hp, .lease hheld⟩).2.nodup
    · apply (leases_pairwise hI).imp
      intro a b hab i hi hi'
      exact hab _ (mem_units.1 hi) (mem_units.1 hi')
  have hbelow : w.leases.flatMap units ⊆ List.range w.highest := by
    intro i hi
    obtain ⟨lease, hlease, hin⟩ := List.mem_flatMap.1 hi
    obtain ⟨pid, session, hheld⟩ := holds_of_mem hlease
    obtain ⟨box, hbox, hleased⟩ := hI.whole hheld
    have hlt := hleased.within _ (mem_units.1 hin) rfl
    rw [List.mem_range]
    exact Nat.lt_of_lt_of_le hlt hbox
  have hcount : (w.leases.flatMap units).length ≤ w.highest := by
    have hle := (List.subperm_of_subset hnodup hbelow).length_le
    rwa [List.length_range] at hle
  have hweight : ∀ l : List Lease, (∀ lease ∈ l, lease.request.weight ≤ (units lease).length) →
      (l.map (fun lease => lease.request.weight)).sum ≤ ((l.flatMap units).length : Int) := by
    intro l hl
    induction l with
    | nil => simp
    | cons lease l ih =>
      have hone := hl lease (by simp)
      have hrest := ih (fun a ha => hl a (by simp [ha]))
      rw [List.map_cons, List.sum_cons, List.flatMap_cons, List.length_append, Int.natCast_add]
      exact Int.add_le_add hone hrest
  have hunits : ∀ lease ∈ w.leases, lease.request.weight ≤ (units lease).length := by
    intro lease hlease
    obtain ⟨pid, session, hheld⟩ := holds_of_mem hlease
    obtain ⟨box, -, hleased⟩ := hI.whole hheld
    unfold units
    rw [List.length_map, hleased.units]
    exact Int.self_le_toNat _
  rw [weight_eq]
  exact Int.le_trans (hweight w.leases hunits) (Int.ofNat_le.2 hcount)

end Weight

structure Admitted (l : List Obs) (w : World) : Prop where
  single : ∀ {pid pid' : Int} {who who' : Option String} {call call' : Nat} {slots slots' : List Slot} {s : Slot},
    Owns w pid who call slots → Owns w pid' who' call' slots' → s ∈ slots → s ∈ slots' → pid = pid' ∧ who = who'
  weight : w.weight ≤ w.highest
  group : ∀ {pid pid' : Int} {session session' : String} {lease lease' : Lease} {group : String},
    Holds w pid session lease → Holds w pid' session' lease' → lease.request.exclusiveGroup = some group →
    lease'.request.exclusiveGroup = some group → group ≠ "" → pid = pid' ∧ session = session'
  clean : ∀ call, .failed call ∈ l → ∀ s dir, w.dirs.get s = some dir → dir.call ≠ call

/-- **In every run that heeds**, a slot has one live owner, the limits hold, a group has one live holder, and a failed
acquisition leaves no slot. -/
theorem admitted_while_heeded (sha256 : String → String) (l : List Obs) (w : World)
    (h : Sys.RunOn (fun _ => Heeds) (step sha256) World.fresh l w) : Admitted l w := by
  have hinv : Standing sha256 w ∧ ∀ call, .failed call ∈ l → Gone w call := by
    refine Sys.RunOn.hist (fun l w => Standing sha256 w ∧ ∀ call, .failed call ∈ l → Gone w call)
      ⟨standing_fresh, by simp⟩ ?_ h
    intro l t e u o ⟨hI, hgone⟩ hheeds hst
    obtain ⟨hI', hkeep, hfailed⟩ := (step_steps hst).standing hI hheeds
    refine ⟨hI', fun call hcall => ?_⟩
    rcases List.mem_append.1 hcall with hcall | hcall
    · exact hkeep call (hgone call hcall)
    · exact hfailed call hcall
  obtain ⟨hI, hgone⟩ := hinv
  refine ⟨fun ho ho' hs hs' => hI.disjoint ho ho' hs hs', hI.weight_le, ?_, fun call hcall => (hgone call hcall).nothing⟩
  intro pid pid' session session' lease lease' group hholds hholds' hgroup hgroup' hne
  obtain ⟨box, -, hleased⟩ := hI.whole hholds
  obtain ⟨box', -, hleased'⟩ := hI.whole hholds'
  obtain ⟨p, hp, hheld⟩ := hholds
  obtain ⟨p', hp', hheld'⟩ := hholds'
  obtain ⟨hpid, hwho⟩ := hI.disjoint ⟨p, hp, .lease hheld⟩ ⟨p', hp', .lease hheld'⟩ (hleased.group group hgroup hne)
    (hleased'.group group hgroup' hne)
  exact ⟨hpid, by simpa using hwho⟩

def calm (w : World) : Event → Bool
  | .perform pid x =>
    !x.throws && ((w.live.get pid).bind Process.running).all (fun r => match r.operation.pending with
      | some (.rm .reclaim _, _) | some (.rm .scan _, _) => false
      | _ => true)
  | _ => true

theorem heeds_of_calm (w : World) (e : Event) (h : calm w e = true) : Heeds w e := by
  cases e with
  | perform pid x =>
    intro p r o k hp hr hpending
    simp only [calm] at h
    rw [hp, Option.bind_some, hr, Option.all_some, hpending, Bool.and_eq_true, Bool.not_eq_true'] at h
    obtain ⟨hthrows, hcall⟩ := h
    have hnot : x.throws ≠ true := by rw [hthrows]; simp
    cases o with
    | mkdirRoot root => exact fun h => absurd h hnot
    | readOwner releasing slot => cases releasing with
      | false => trivial
      | true => exact fun _ => hthrows
    | rm why slot => cases why with
      | reclaim => cases hcall
      | scan => cases hcall
      | unwritten => exact hthrows
      | release => exact fun _ => hthrows
    | _ => trivial
  | _ => trivial

theorem admitted_while_heeded_sample : ∃ l w, Sys.RunOn (fun _ => Heeds) (step id) World.fresh l w ∧ w.weight = 1 ∧ Admitted l w := by
  have hrun : (Sys.replayOn calm (step id) World.fresh ([.start 1 "t" 2, .acquire 1 ⟨"s", "a", 1, none, none, none, some "g"⟩] ++
      List.replicate 14 (.perform 1 ⟨false, false, false⟩) ++ [.finish 1])).any (fun r => decide (r.1.weight = 1)) = true := by
    decide +kernel
  cases hr : Sys.replayOn calm (step id) World.fresh ([.start 1 "t" 2, .acquire 1 ⟨"s", "a", 1, none, none, none, some "g"⟩] ++
      List.replicate 14 (.perform 1 ⟨false, false, false⟩) ++ [.finish 1]) with
  | none => rw [hr] at hrun; cases hrun
  | some r =>
    rw [hr, Option.any_some, decide_eq_true_eq] at hrun
    have hheeds := Sys.replayOn_runOn heeds_of_calm _ _ r.1 [] r.2 .nil hr
    exact ⟨r.2, r.1, hheeds, hrun, admitted_while_heeded id _ _ hheeds⟩

def well : Choice := ⟨false, false, false⟩

def fails : Choice := ⟨true, false, false⟩

def performs (pid : Int) (n : Nat) : List Event := List.replicate n (.perform pid well)

def grouped : AdmissionRequest := ⟨"s", "a", 1, none, none, none, some "g"⟩

/-- The slot of the exclusive group `g`, its hash standing for itself. -/
def groupSlot : Slot := ⟨.exclusive "g", 0⟩

/-- Processes 2 and 3 find the crashed holder dead; process 3 acquires in its place, and process 2 removes its slot. -/
def twoReclaimers : List Event :=
  [.start 1 "t1" 2, .acquire 1 grouped] ++ performs 1 14 ++ [.finish 1, .crash 1, .start 2 "t2" 2, .start 3 "t3" 2] ++
    [.acquire 2 grouped] ++ performs 2 4 ++ [.acquire 3 grouped] ++ performs 3 25 ++ [.finish 3] ++ performs 2 22 ++ [.finish 2]

def rootThrows : List Event := [.start 1 "t1" 2, .acquire 1 grouped] ++ performs 1 3 ++ [.perform 1 fails, .finish 1]

/-- Whether a process holds a lease of group `g` with its slot. -/
def holdsGroup (w : World) (pid : Int) : Bool :=
  ((w.live.get pid).bind (fun p => p.held.get "s")).any
    (fun lease => decide (groupSlot ∈ lease.slots) && decide (lease.request.exclusiveGroup = some "g"))

theorem holdsGroup_holds {pid : Int} (h : holdsGroup w pid = true) :
    ∃ lease, Holds w pid "s" lease ∧ groupSlot ∈ lease.slots ∧ lease.request.exclusiveGroup = some "g" := by
  unfold holdsGroup at h
  cases hp : w.live.get pid with
  | none => rw [hp] at h; cases h
  | some p =>
    rw [hp, Option.bind_some] at h
    cases hheld : p.held.get "s" with
    | none => rw [hheld] at h; cases h
    | some lease =>
      rw [hheld, Option.any_some, Bool.and_eq_true, decide_eq_true_eq, decide_eq_true_eq] at h
      exact ⟨lease, ⟨p, hp, hheld⟩, h⟩

/-- **Without the condition** one exclusive slot has two live holders, and an acquisition that throws leaves a slot. -/
theorem admission_reclaims_live_and_leaks :
    (∃ l w lease lease', Sys.Run (step id) World.fresh l w ∧ Holds w 2 "s" lease ∧ Holds w 3 "s" lease' ∧
      groupSlot ∈ lease.slots ∧ groupSlot ∈ lease'.slots ∧ lease.request.exclusiveGroup = some "g" ∧
      lease'.request.exclusiveGroup = some "g") ∧
    ∃ l w dir, Sys.Run (step id) World.fresh l w ∧ .failed 0 ∈ l ∧ w.dirs.get groupSlot = some dir ∧ dir.call = 0 := by
  constructor
  · have hrun : (Sys.replay (step id) World.fresh twoReclaimers).any
        (fun r => holdsGroup r.1 2 && holdsGroup r.1 3) = true := by decide +kernel
    cases hr : Sys.replay (step id) World.fresh twoReclaimers with
    | none => rw [hr] at hrun; cases hrun
    | some r =>
      rw [hr, Option.any_some, Bool.and_eq_true] at hrun
      obtain ⟨lease, hlease, hslot, hgroup⟩ := holdsGroup_holds hrun.1
      obtain ⟨lease', hlease', hslot', hgroup'⟩ := holdsGroup_holds hrun.2
      exact ⟨r.2, r.1, lease, lease', Sys.replay_run _ _ _ _ hr, hlease, hlease', hslot, hslot', hgroup, hgroup'⟩
  · have hrun : (Sys.replay (step id) World.fresh rootThrows).any
        (fun r => decide (.failed 0 ∈ r.2) && decide (r.1.dirs.get groupSlot = some ⟨0, some ⟨1, "t1", "s", "a"⟩⟩)) = true := by
      decide +kernel
    cases hr : Sys.replay (step id) World.fresh rootThrows with
    | none => rw [hr] at hrun; cases hrun
    | some r =>
      rw [hr, Option.any_some, Bool.and_eq_true, decide_eq_true_eq, decide_eq_true_eq] at hrun
      exact ⟨r.2, r.1, _, Sys.replay_run _ _ _ _ hr, hrun.1, hrun.2, rfl⟩

end Admission
end Wollipog

import Wollipog.Lib.OrdMap
import Wollipog.Lib.Run
import Wollipog.Lib.Js
/-!
# Allocator — port blocks for worktrees

Every runner process keeps the allocations it last read; the journal on disk is the authority. A call holds the
mutation lock while it reads the journal, changes the map and renames a new file over the journal.
-/
namespace Wollipog.Ports

structure WorktreePortBlock where
  start : Int
  end_ : Int
  size : Int
deriving DecidableEq

structure WorktreePortAllocation where
  owner : String
  block : WorktreePortBlock
  allocatedAt : Int
deriving DecidableEq

structure RunnerWorktreePorts where
  start : Int
  end_ : Int
  blockSize : Int
  start_ge : 1024 ≤ start
  end_le : end_ ≤ 65535
  blockSize_pos : 1 ≤ blockSize
  blockSize_le : blockSize ≤ end_ - start + 1

/-- `worktreePortOwner`: a session and a worktree of it. -/
structure WorktreePortOwner where
  sessionId : String
  worktreeId : String
deriving DecidableEq

def WorktreePortOwner.text (o : WorktreePortOwner) : String := o.sessionId ++ "\x00" ++ o.worktreeId

/-- `Date.now()` -/
structure Clock where
  now : Int
  safe : Js.isSafeInteger now = true

def validBlock (b : WorktreePortBlock) : Bool :=
  decide (1 ≤ b.start) && decide (b.end_ ≤ 65535) && decide (1 ≤ b.size) && decide (b.end_ - b.start + 1 = b.size)

def overlaps (a b : WorktreePortBlock) : Bool := decide (a.start ≤ b.end_) && decide (b.start ≤ a.end_)

abbrev Allocations := OrdMap String WorktreePortAllocation

/-- `[...this.allocations.values()]` -/
def values (m : Allocations) : List WorktreePortAllocation := m.entries.map Prod.snd

def taken (m : Allocations) (b : WorktreePortBlock) : Bool := (values m).any (fun a => overlaps a.block b)

/-- The entries of the journal put into the map one by one, up to one that is not accepted. -/
def reloadEntries : List WorktreePortAllocation → Allocations → Allocations × Bool
  | [], m => (m, true)
  | a :: as, m =>
    if a.owner = "" || !Js.isSafeInteger a.allocatedAt || !validBlock a.block then (m, false)
    else if (m.get a.owner).isSome || taken m a.block then (m, false)
    else reloadEntries as (m.set a.owner a)

/-- `reload`: what is in memory after it, and whether it returned; no journal is an empty one. -/
def reload (journal : Option (List WorktreePortAllocation)) : Allocations × Bool :=
  journal.elim (OrdMap.empty, true) (fun l => reloadEntries l OrdMap.empty)

/-- How the primitives of one `flush` end; `none` where the directory's succeed. -/
structure FlushIo where
  opened : Bool
  written : Bool
  synced : Bool
  closed : Bool
  renamed : Bool
  directoryOpen : Option String
  directorySync : Option String
  directoryClosed : Bool
deriving DecidableEq

/-- The errors of the directory that `flush` passes over. -/
def tolerated (code : String) : Bool := ["EINVAL", "ENOTSUP", "EPERM"].contains code

def FlushIo.replaces (io : FlushIo) : Bool := io.opened && io.written && io.synced && io.closed && io.renamed

def FlushIo.settles (io : FlushIo) : Bool :=
  match io.directoryOpen with
  | some e => tolerated e
  | none => io.directorySync.all tolerated && io.directoryClosed

/-- The journal after `flush`, and whether it returned. -/
def flush (io : FlushIo) (m : Allocations) (journal : Option (List WorktreePortAllocation)) :
    Option (List WorktreePortAllocation) × Bool :=
  if io.replaces then (some (values m), io.settles) else (journal, false)

def candidates (range : RunnerWorktreePorts) : List WorktreePortBlock :=
  (List.range ((range.end_ - range.start + 1) / range.blockSize).toNat).map (fun i : Nat =>
    ⟨range.start + i * range.blockSize, range.start + i * range.blockSize + range.blockSize - 1, range.blockSize⟩)

inductive Refusal
  | disagrees
  | invalidPreferred
  | collides
  | exhausted
deriving DecidableEq

def select (range : RunnerWorktreePorts) (m : Allocations) : Option WorktreePortBlock → Except Refusal WorktreePortBlock
  | some preferred =>
    if !validBlock preferred then .error .invalidPreferred
    else if taken m preferred then .error .collides
    else .ok preferred
  | none =>
    match (candidates range).find? (fun candidate => !taken m candidate) with
    | some candidate => .ok candidate
    | none => .error .exhausted

inductive Ended
  | returned (b : WorktreePortBlock)
  | released (found : Bool)
  | refused (r : Refusal)
  | flushFailed
  | unreadable
deriving DecidableEq

/-- The critical section of `allocate`: what is in memory, the journal, and how the call ends. -/
def allocate (range : RunnerWorktreePorts) (journal : Option (List WorktreePortAllocation)) (owner : String)
    (preferred : Option WorktreePortBlock) (clock : Clock) (io : FlushIo) :
    Allocations × Option (List WorktreePortAllocation) × Ended :=
  match reload journal with
  | (m, false) => (m, journal, .unreadable)
  | (m, true) =>
    match m.get owner with
    | some existing =>
      if preferred.any (fun p => decide (p ≠ existing.block)) then (m, journal, .refused .disagrees)
      else (m, journal, .returned existing.block)
    | none =>
      match select range m preferred with
      | .error r => (m, journal, .refused r)
      | .ok selected =>
        match flush io (m.set owner ⟨owner, selected, clock.now⟩) journal with
        | (journal, true) => (m.set owner ⟨owner, selected, clock.now⟩, journal, .returned selected)
        | (journal, false) => ((m.set owner ⟨owner, selected, clock.now⟩).erase owner, journal, .flushFailed)

/-- The critical section of `release`. -/
def release (journal : Option (List WorktreePortAllocation)) (owner : String) (io : FlushIo) :
    Allocations × Option (List WorktreePortAllocation) × Ended :=
  match reload journal with
  | (m, false) => (m, journal, .unreadable)
  | (m, true) =>
    match m.get owner with
    | none => (m, journal, .released false)
    | some allocation =>
      match flush io (m.erase owner) journal with
      | (journal, true) => (m.erase owner, journal, .released true)
      | (journal, false) => ((m.erase owner).set owner allocation, journal, .flushFailed)

structure Process where
  range : RunnerWorktreePorts
  allocations : Allocations

structure World where
  journal : Option (List WorktreePortAllocation)
  processes : OrdMap Nat Process

inductive Call
  | allocate (owner : WorktreePortOwner) (preferred : Option WorktreePortBlock) (clock : Clock)
  | release (owner : WorktreePortOwner)

inductive Event
  /-- A runner process constructs its allocator. -/
  | construct (p : Nat) (range : RunnerWorktreePorts)
  | call (p : Nat) (c : Call) (io : FlushIo)

structure Observation where
  call : Call
  ended : Ended

def Call.run (c : Call) (range : RunnerWorktreePorts) (journal : Option (List WorktreePortAllocation)) (io : FlushIo) :
    Allocations × Option (List WorktreePortAllocation) × Ended :=
  match c with
  | .allocate owner preferred clock => Ports.allocate range journal owner.text preferred clock io
  | .release owner => Ports.release journal owner.text io

def step (w : World) : Event → Option (World × List Observation)
  | .construct p range =>
    match reload w.journal with
    | (m, true) => some ({ w with processes := w.processes.set p ⟨range, m⟩ }, [])
    | (_, false) => none
  | .call p c io =>
    match w.processes.get p with
    | none => none
    | some process =>
      some (⟨(c.run process.range w.journal io).2.1,
        w.processes.set p { process with allocations := (c.run process.range w.journal io).1 }⟩,
        [⟨c, (c.run process.range w.journal io).2.2⟩])

end Wollipog.Ports

/-! ## What the journal holds, and what one call does to it

A journal that is read holds valid blocks, one for each owner and no two overlapping.
-/
namespace Wollipog.Ports

/-- A map that `reload` may build. -/
structure Good (m : Allocations) : Prop where
  entry : ∀ k a, (k, a) ∈ m.entries → a.owner = k ∧ k ≠ "" ∧ Js.isSafeInteger a.allocatedAt = true ∧ validBlock a.block = true
  disjoint : m.entries.Pairwise (fun x y => overlaps x.2.block y.2.block = false)

theorem good_empty : Good OrdMap.empty := ⟨fun _ _ h => absurd h List.not_mem_nil, List.Pairwise.nil⟩

variable {m : Allocations}

theorem taken_eq_false {b : WorktreePortBlock} : taken m b = false ↔ ∀ e ∈ m.entries, overlaps e.2.block b = false := by
  unfold taken values
  rw [List.any_map, List.any_eq_false]
  constructor
  · intro h e he
    exact Bool.eq_false_iff.2 (h e he)
  · intro h e he
    exact Bool.eq_false_iff.1 (h e he)

theorem Good.set (h : Good m) {k : String} {a : WorktreePortAllocation} (hnew : m.get k = none)
    (ha : a.owner = k ∧ k ≠ "" ∧ Js.isSafeInteger a.allocatedAt = true ∧ validBlock a.block = true)
    (hfree : taken m a.block = false) : Good (m.set k a) := by
  constructor
  · intro j b hb
    rw [OrdMap.entries_set_new hnew] at hb
    rcases List.mem_append.1 hb with hb | hb
    · exact h.entry j b hb
    · cases List.mem_singleton.1 hb
      exact ha
  · rw [OrdMap.entries_set_new hnew, List.pairwise_append]
    refine ⟨h.disjoint, List.pairwise_singleton _ _, ?_⟩
    intro x hx y hy
    rw [List.mem_singleton.1 hy]
    exact taken_eq_false.1 hfree x hx

theorem Good.erase (h : Good m) (k : String) : Good (m.erase k) :=
  ⟨fun j a ha => h.entry j a (List.mem_filter.1 ha).1, h.disjoint.sublist List.filter_sublist⟩

theorem reloadEntries_values (h : Good m) : ∀ (rest : List (String × WorktreePortAllocation)) (m₀ : Allocations),
    m₀.entries ++ rest = m.entries → reloadEntries (rest.map Prod.snd) m₀ = (m, true)
  | [], m₀, hm => by
    rw [List.append_nil] at hm
    have heq : m₀ = m := OrdMap.ext hm
    rw [heq]
    rfl
  | (k, a) :: rest, m₀, hm => by
    have hmem : (k, a) ∈ m.entries := hm ▸ List.mem_append_cons_self
    obtain ⟨rfl, howner, hsafe, hvalid⟩ := h.entry k a hmem
    have hnodup := m.nodup
    rw [← hm, List.map_append, List.nodup_append] at hnodup
    have hnew : m₀.get a.owner = none := by
      rw [OrdMap.get_eq_none_iff]
      intro hin
      exact hnodup.2.2 _ hin _ List.mem_cons_self rfl
    have hdisjoint := h.disjoint
    rw [← hm, List.pairwise_append] at hdisjoint
    have hfree : taken m₀ a.block = false :=
      taken_eq_false.2 (fun e he => hdisjoint.2.2 e he (a.owner, a) List.mem_cons_self)
    have hrest := reloadEntries_values h rest (m₀.set a.owner a) (by
      rw [OrdMap.entries_set_new hnew, List.append_assoc]
      exact hm)
    rw [List.map_cons]
    unfold reloadEntries
    rw [if_neg, if_neg]
    · exact hrest
    · rw [hnew, hfree]
      decide
    · rw [hsafe, hvalid]
      simpa using howner

/-- **What is written is read back.** -/
theorem reload_values (h : Good m) : reload (some (values m)) = (m, true) := by
  have hread := reloadEntries_values h m.entries OrdMap.empty rfl
  exact hread

structure Recorded (journal : Option (List WorktreePortAllocation)) (m : Allocations) : Prop where
  read : reload journal = (m, true)
  good : Good m
  entries : journal.getD [] = values m

theorem recorded_values (h : Good m) : Recorded (some (values m)) m := ⟨reload_values h, h, rfl⟩

theorem recorded_none : Recorded none OrdMap.empty := ⟨rfl, good_empty, rfl⟩

/-- What a call does where the journal is read as `m`. -/
inductive Outcome (range : RunnerWorktreePorts) (journal : Option (List WorktreePortAllocation)) (m : Allocations) (io : FlushIo) :
    Call → Allocations × Option (List WorktreePortAllocation) × Ended → Prop
  | again (owner : WorktreePortOwner) (preferred clock) (existing : WorktreePortAllocation)
      (hget : m.get owner.text = some existing) (hagrees : ∀ p, preferred = some p → p = existing.block) :
      Outcome range journal m io (.allocate owner preferred clock) (m, journal, .returned existing.block)
  | disagrees (owner : WorktreePortOwner) (preferred clock) (existing : WorktreePortAllocation)
      (hget : m.get owner.text = some existing) (p) (hp : preferred = some p) (hne : p ≠ existing.block) :
      Outcome range journal m io (.allocate owner preferred clock) (m, journal, .refused .disagrees)
  | refused (owner : WorktreePortOwner) (preferred clock r) (hget : m.get owner.text = none)
      (hselect : select range m preferred = .error r) :
      Outcome range journal m io (.allocate owner preferred clock) (m, journal, .refused r)
  | allocated (owner : WorktreePortOwner) (preferred) (clock : Clock) (b) (hget : m.get owner.text = none)
      (hselect : select range m preferred = .ok b) (hio : io.replaces = true ∧ io.settles = true) :
      Outcome range journal m io (.allocate owner preferred clock)
        (m.set owner.text ⟨owner.text, b, clock.now⟩, some (values (m.set owner.text ⟨owner.text, b, clock.now⟩)), .returned b)
  | allocateFailed (owner : WorktreePortOwner) (preferred) (clock : Clock) (b) (hget : m.get owner.text = none)
      (hselect : select range m preferred = .ok b) (hio : ¬(io.replaces = true ∧ io.settles = true)) :
      Outcome range journal m io (.allocate owner preferred clock)
        (m, if io.replaces then some (values (m.set owner.text ⟨owner.text, b, clock.now⟩)) else journal, .flushFailed)
  | absent (owner : WorktreePortOwner) (hget : m.get owner.text = none) :
      Outcome range journal m io (.release owner) (m, journal, .released false)
  | released (owner : WorktreePortOwner) (a) (hget : m.get owner.text = some a) (hio : io.replaces = true ∧ io.settles = true) :
      Outcome range journal m io (.release owner) (m.erase owner.text, some (values (m.erase owner.text)), .released true)
  | releaseFailed (owner : WorktreePortOwner) (a) (hget : m.get owner.text = some a)
      (hio : ¬(io.replaces = true ∧ io.settles = true)) :
      Outcome range journal m io (.release owner) ((m.erase owner.text).set owner.text a,
        if io.replaces then some (values (m.erase owner.text)) else journal, .flushFailed)

theorem flush_eq (io : FlushIo) (m : Allocations) (journal : Option (List WorktreePortAllocation)) :
    flush io m journal = (if io.replaces then some (values m) else journal, io.replaces && io.settles) := by
  unfold flush
  cases io.replaces <;> rfl

/-- **What one call can do.** -/
theorem run_outcome {journal : Option (List WorktreePortAllocation)} (h : reload journal = (m, true))
    (range : RunnerWorktreePorts) (c : Call) (io : FlushIo) : Outcome range journal m io c (c.run range journal io) := by
  cases c with
  | allocate owner preferred clock =>
    unfold Call.run allocate
    simp only [h]
    cases hget : m.get owner.text with
    | some existing =>
      simp only
      split
      · rename_i hany
        obtain ⟨p, hp, hne⟩ := (Option.any_eq_true _ _).1 hany
        exact .disagrees owner preferred clock existing hget p hp (of_decide_eq_true hne)
      · rename_i hnone
        refine .again owner preferred clock existing hget ?_
        intro p hp
        by_contra hne
        exact hnone ((Option.any_eq_true _ _).2 ⟨p, hp, decide_eq_true hne⟩)
    | none =>
      simp only
      cases hselect : select range m preferred with
      | error r => exact .refused owner preferred clock r hget hselect
      | ok b =>
        simp only [flush_eq]
        by_cases hio : io.replaces = true ∧ io.settles = true
        · have hdone : Outcome range journal m io _ _ := .allocated owner preferred clock b hget hselect hio
          simp only [hio.1, hio.2, Bool.and_self, if_true] at hdone ⊢
          exact hdone
        · have hfailed : Outcome range journal m io _ _ := .allocateFailed owner preferred clock b hget hselect hio
          have hfalse : (io.replaces && io.settles) = false := by
            rw [Bool.eq_false_iff, Ne, Bool.and_eq_true]
            exact hio
          simp only [hfalse, OrdMap.erase_set_new hget]
          exact hfailed
  | release owner =>
    unfold Call.run release
    simp only [h]
    cases hget : m.get owner.text with
    | none => exact .absent owner hget
    | some a =>
      simp only [flush_eq]
      by_cases hio : io.replaces = true ∧ io.settles = true
      · have hdone : Outcome range journal m io _ _ := .released owner a hget hio
        simp only [hio.1, hio.2, Bool.and_self, if_true] at hdone ⊢
        exact hdone
      · have hfailed : Outcome range journal m io _ _ := .releaseFailed owner a hget hio
        have hfalse : (io.replaces && io.settles) = false := by
          rw [Bool.eq_false_iff, Ne, Bool.and_eq_true]
          exact hio
        simp only [hfalse]
        exact hfailed

end Wollipog.Ports

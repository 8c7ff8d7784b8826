import Wollipog.Lib.Run
/-!
# Exclusion — the lock file of one command id, primitive by primitive, and when the command lock excludes

`withCommandLock` and `withLock` are one sequence of file-system primitives; only the first reads the owner of a stale
lock. A process stands between two primitives (`Pc`), and a file keeps its inode after its name is removed.
-/
namespace Wollipog
namespace Lock

structure Variant where
  staleMs : Int
  ownerStaleMs : Int
  readsOwner : Bool

def withCommandLock : Variant := ⟨30000, 60000, true⟩
def withLock : Variant := ⟨30000, 60000, false⟩

/-- A lock file's text: not an object, or one with its `ownerId` (when a string) and nonce. -/
inductive Content
  | unparsable
  | object (ownerId : Option String) (nonce : Nat)
deriving DecidableEq, Repr

structure File where
  content : Content
  mtimeMs : Int
deriving DecidableEq, Repr

/-- The primitive a process performs next; from `writing` on it holds the lock and has its file open. -/
inductive Pc
  | idle
  | opening (nonce : Nat)
  | stating (nonce : Nat)
  | reading (nonce : Nat)
  | removing (nonce : Nat)
  | reopening (nonce : Nat)
  | writing (nonce inode : Nat)
  | inside (nonce inode : Nat)
  | checking (nonce inode : Nat)
  | releasing (nonce inode : Nat)
deriving DecidableEq, Repr

def Pc.held : Pc → Option Nat
  | .writing _ inode | .inside _ inode | .checking _ inode | .releasing _ inode => some inode
  | _ => none

structure World where
  clock : Int
  leases : String → Option Int
  owner : Nat → String
  path : Option Nat
  files : Nat → File
  inodes : Nat
  nonces : Nat
  pc : Nat → Pc

def World.goto (w : World) (p : Nat) (pc : Pc) : World := { w with pc := Function.update w.pc p pc }

@[simp] theorem World.goto_path (w : World) (p : Nat) (pc : Pc) : (w.goto p pc).path = w.path := rfl

theorem World.goto_pc (w : World) (p q : Nat) (pc : Pc) : (w.goto p pc).pc q = if q = p then pc else w.pc q := by
  simp only [World.goto, Function.update_apply]

/-- `openSync(file, "wx")` on a free name. -/
def World.create (w : World) (p nonce : Nat) : World :=
  { w with
    path := some w.inodes
    files := Function.update w.files w.inodes ⟨.unparsable, w.clock⟩
    inodes := w.inodes + 1 }.goto p (.writing nonce w.inodes)

def World.removePath (w : World) : World := { w with path := none }

def ownerIsLive (v : Variant) (w : World) (ownerId : String) : Bool :=
  match w.leases ownerId with
  | some updatedAt => decide (w.clock - updatedAt < v.ownerStaleMs)
  | none => false

inductive Obs
  | acquired (p : Nat)
  | busy (p : Nat)
  | released (p : Nat)
deriving DecidableEq, Repr

/-- `null`: the lock was not acquired. -/
def busy (w : World) (p : Nat) : World × List Obs := (w.goto p .idle, [.busy p])

def perform (v : Variant) (w : World) (p : Nat) : Option (World × List Obs) :=
  match w.pc p with
  | .idle => none
  | .opening nonce =>
    match w.path with
    | none => some (w.create p nonce, [.acquired p])
    | some _ => some (w.goto p (.stating nonce), [])
  | .stating nonce =>
    match w.path with
    | none => some (busy w p)
    | some i =>
      if w.clock - (w.files i).mtimeMs ≤ v.staleMs then some (busy w p)
      else if v.readsOwner then some (w.goto p (.reading nonce), [])
      else some (w.goto p (.removing nonce), [])
  | .reading nonce =>
    match w.path with
    | none => some (busy w p)
    | some i =>
      match (w.files i).content with
      | .unparsable => some (busy w p)
      | .object ownerId _ =>
        if ownerId.any (ownerIsLive v w) then some (busy w p) else some (w.goto p (.removing nonce), [])
  | .removing nonce =>
    match w.path with
    | none => some (busy w p)
    | some _ => some (w.removePath.goto p (.reopening nonce), [])
  | .reopening nonce =>
    match w.path with
    | none => some (w.create p nonce, [.acquired p])
    | some _ => some (busy w p)
  | .writing nonce i =>
    some ({ w with files := Function.update w.files i ⟨.object (some (w.owner p)) nonce, w.clock⟩ }.goto p
      (.inside nonce i), [])
  | .inside nonce i => some (w.goto p (.checking nonce i), [])
  | .checking nonce i =>
    match w.path with
    | none => some (w.goto p .idle, [.released p])
    | some j =>
      -- the file at the name is read, whoever created it
      if (w.files j).content = .object (some (w.owner p)) nonce then some (w.goto p (.releasing nonce i), [])
      else some (w.goto p .idle, [.released p])
  | .releasing _ _ => some (w.removePath.goto p .idle, [.released p])

def throws (w : World) (p : Nat) : Option (World × List Obs) :=
  match w.pc p with
  | .idle => none
  | .opening _ | .stating _ | .reading _ | .removing _ | .reopening _ => some (busy w p)
  | .writing nonce i | .inside nonce i => some (w.goto p (.checking nonce i), [])
  | .checking _ _ | .releasing _ _ => some (w.goto p .idle, [.released p])

inductive Event
  | call (p : Nat)
  | perform (p : Nat)
  | throws (p : Nat)
  | crash (p : Nat) (owner : String)
  | heartbeat (p : Nat)
  | tick (ms : Nat)
deriving DecidableEq, Repr

def step (v : Variant) (w : World) : Event → Option (World × List Obs)
  | .call p =>
    match w.pc p with
    | .idle => some ({ w with nonces := w.nonces + 1 }.goto p (.opening w.nonces), [])
    | _ => none
  | .perform p => perform v w p
  | .throws p => throws w p
  -- the process restarts under a new owner id; its lock file stays
  | .crash p owner => some ({ w with owner := Function.update w.owner p owner }.goto p .idle, [])
  | .heartbeat p => some ({ w with leases := Function.update w.leases (w.owner p) (some w.clock) }, [])
  | .tick ms => some ({ w with clock := w.clock + ms }, [])

def start (clock : Int) (leases : String → Option Int) (owner : Nat → String) (stale : Option File) : World where
  clock := clock
  leases := leases
  owner := owner
  path := stale.map (fun _ => 0)
  files := fun _ => stale.getD ⟨.unparsable, clock⟩
  inodes := 1
  nonces := 0
  pc := fun _ => .idle

/-- **Exclusion**: two holders are one. -/
def Exclusive (w : World) : Prop := ∀ p q, (w.pc p).held ≠ none → (w.pc q).held ≠ none → p = q

end Lock
end Wollipog

/-! ## When the command lock excludes

A taker removes whatever file is at the name when it comes to remove, and so does a release.  So exclusion holds in every
run where no removal hits the file of another holder (`RemovesSafely`).
-/
namespace Wollipog
namespace Lock

open Sys (Run RunOn)

def Pc.removes : Pc → Bool
  | .removing _ | .releasing _ _ => true
  | _ => false

/-- **The condition**: a removal finds at the name no file that another process acquired and still holds. -/
def RemovesSafely (w : World) : Event → Prop
  | .perform p => (w.pc p).removes = true → ∀ q, q ≠ p → ∀ i, (w.pc q).held = some i → w.path ≠ some i
  | _ => True

/-- What a step does: a process stops holding, a free name is taken, or the file at the name is removed. -/
inductive Moves (w u : World) : Event → Prop
  | keeps (e : Event) (hp : u.path = w.path) (h : ∀ q i, (u.pc q).held = some i → (w.pc q).held = some i) : Moves w u e
  | takes (e : Event) (p i : Nat) (h0 : w.path = none) (h1 : u.path = some i)
      (h : ∀ q j, (u.pc q).held = some j → (q = p ∧ j = i) ∨ (w.pc q).held = some j) : Moves w u e
  | removes (p : Nat) (hr : (w.pc p).removes = true) (h1 : u.path = none)
      (h : ∀ q i, (u.pc q).held = some i → q ≠ p ∧ (w.pc q).held = some i) : Moves w u (.perform p)

variable {pc : Pc} {p : Nat} {e : Event} {u w : World} {v : Variant} {o : List Obs}

theorem held_goto (hpc : ∀ i, pc.held = some i → (w.pc p).held = some i) (q i : Nat)
    (h : ((w.goto p pc).pc q).held = some i) : (w.pc q).held = some i := by
  rw [World.goto_pc] at h
  by_cases hq : q = p
  · rw [if_pos hq] at h; rw [hq]; exact hpc i h
  · rwa [if_neg hq] at h

theorem held_removed (hpc : pc.held = none) (q i : Nat)
    (h : ((w.goto p pc).pc q).held = some i) : q ≠ p ∧ (w.pc q).held = some i := by
  rw [World.goto_pc] at h
  by_cases hq : q = p
  · rw [if_pos hq, hpc] at h; cases h
  · rw [if_neg hq] at h; exact ⟨hq, h⟩

theorem create_moves (e : Event) (p nonce : Nat) (h0 : w.path = none) : Moves w (w.create p nonce) e := by
  refine .takes e p w.inodes h0 rfl (fun q j h => ?_)
  unfold World.create at h
  rw [World.goto_pc] at h
  by_cases hq : q = p
  · rw [if_pos hq] at h
    exact .inl ⟨hq, (Option.some.inj h).symm⟩
  · rw [if_neg hq] at h
    exact .inr h

theorem perform_moves (h : perform v w p = some (u, o)) : Moves w u (.perform p) := by
  have keep : ∀ pc : Pc, (∀ i, pc.held = some i → (w.pc p).held = some i) → Moves w (w.goto p pc) (.perform p) :=
    fun pc hpc => .keeps _ rfl (held_goto hpc)
  unfold perform at h
  split at h
  · cases h
  · split at h
    · rename_i hp; cases h; exact create_moves _ p _ hp
    · cases h; exact keep _ (fun i hi => by cases hi)
  · split at h
    · cases h; exact keep _ (fun i hi => by cases hi)
    · split at h
      · cases h; exact keep _ (fun i hi => by cases hi)
      · split at h <;> (cases h; exact keep _ (fun i hi => by cases hi))
  · split at h
    · cases h; exact keep _ (fun i hi => by cases hi)
    · split at h
      · cases h; exact keep _ (fun i hi => by cases hi)
      · split at h <;> (cases h; exact keep _ (fun i hi => by cases hi))
  · rename_i nonce hpc
    split at h
    · cases h; exact keep _ (fun i hi => by cases hi)
    · cases h
      exact .removes p (by rw [hpc]; rfl) rfl (held_removed rfl)
  · split at h
    · rename_i hp; cases h; exact create_moves _ p _ hp
    · cases h; exact keep _ (fun i hi => by cases hi)
  · rename_i nonce i hpc
    cases h
    exact .keeps _ rfl (fun q j hj => held_goto (w := w) (fun k hk => by rw [hpc]; exact hk) q j hj)
  · rename_i nonce i hpc
    cases h; exact keep _ (fun j hj => by rw [hpc]; exact hj)
  · rename_i nonce i hpc
    split at h
    · cases h; exact keep _ (fun j hj => by cases hj)
    · split at h
      · cases h; exact keep _ (fun j hj => by rw [hpc]; exact hj)
      · cases h; exact keep _ (fun j hj => by cases hj)
  · rename_i nonce i hpc
    cases h
    exact .removes p (by rw [hpc]; rfl) rfl (held_removed rfl)

theorem throws_moves (e : Event) (h : throws w p = some (u, o)) : Moves w u e := by
  have keep : ∀ pc : Pc, (∀ i, pc.held = some i → (w.pc p).held = some i) → Moves w (w.goto p pc) e :=
    fun pc hpc => .keeps _ rfl (held_goto hpc)
  unfold throws at h
  split at h
  · cases h
  all_goals rename_i hpc; cases h
  case h_7 => exact keep _ (fun j hj => by rw [hpc]; exact hj)
  case h_8 => exact keep _ (fun j hj => by rw [hpc]; exact hj)
  all_goals exact keep _ (fun i hi => by cases hi)

theorem step_moves (h : step v w e = some (u, o)) : Moves w u e := by
  cases e with
  | call p =>
    simp only [step] at h
    split at h
    · cases h; exact .keeps _ rfl (fun q i hi => held_goto (w := w) (fun j hj => by cases hj) q i hi)
    · cases h
  | perform p => exact perform_moves h
  | throws p => exact throws_moves _ h
  | crash p owner =>
    cases h
    exact .keeps _ rfl (fun q i hi => held_goto (w := w) (fun j hj => by cases hj) q i hi)
  | heartbeat p => cases h; exact .keeps _ rfl (fun _ _ hi => hi)
  | tick ms => cases h; exact .keeps _ rfl (fun _ _ hi => hi)

def HeldAtPath (w : World) : Prop :=
  ∀ p i, (w.pc p).held = some i → w.path = some i ∧ ∀ q, (w.pc q).held ≠ none → q = p

theorem HeldAtPath.exclusive (h : HeldAtPath w) : Exclusive w := by
  intro p q hp hq
  obtain ⟨i, hi⟩ := Option.ne_none_iff_exists'.1 hq
  exact (h q i hi).2 p hp

theorem Moves.heldAtPath (hm : Moves w u e) (hC : RemovesSafely w e) (hI : HeldAtPath w) : HeldAtPath u := by
  intro p i hp
  cases hm with
  | keeps _ hpath h =>
    obtain ⟨h1, h2⟩ := hI p i (h p i hp)
    refine ⟨hpath.trans h1, fun q hq => ?_⟩
    obtain ⟨j, hj⟩ := Option.ne_none_iff_exists'.1 hq
    exact h2 q (by rw [h q j hj]; exact Option.some_ne_none j)
  | takes _ p₀ i₀ h0 h1 h =>
    -- a free name means nobody held before
    have hnone : ∀ q j, (w.pc q).held ≠ some j := fun q j hj => by
      have := (hI q j hj).1
      rw [h0] at this
      cases this
    have hp₀ : ∀ q j, (u.pc q).held = some j → q = p₀ ∧ j = i₀ := fun q j hj =>
      (h q j hj).resolve_right (hnone q j)
    obtain ⟨rfl, rfl⟩ := hp₀ p i hp
    refine ⟨h1, fun q hq => ?_⟩
    obtain ⟨j, hj⟩ := Option.ne_none_iff_exists'.1 hq
    exact (hp₀ q j hj).1
  | removes p₀ hr h1 h =>
    obtain ⟨hne, hw⟩ := h p i hp
    exact absurd (hI p i hw).1 (hC hr p hne i hw)

theorem start_heldAtPath (clock : Int) (leases : String → Option Int) (owner : Nat → String) (stale : Option File) :
    HeldAtPath (start clock leases owner stale) := fun p i hp => by cases hp

theorem held_ne_of_held {q i : Nat} (h : (w.pc q).held = some i) : (w.pc q).held ≠ none := by
  rw [h]; exact Option.some_ne_none i

theorem unsafe_removal_breaks (v : Variant) (w : World) (p q i : Nat) (hr : (w.pc p).removes = true) (hqp : q ≠ p)
    (hq : (w.pc q).held = some i) (hpath : w.path = some i) : ∃ l u, Run (step v) w l u ∧ ¬ Exclusive u := by
  -- the two processes that hold in the end, whatever the way there
  have fin : ∀ (u : World), (u.pc p).held ≠ none → (u.pc q).held ≠ none → ¬ Exclusive u :=
    fun u hp hq' h => hqp (h q p hq' hp)
  cases hpc : w.pc p with
  | removing nonce =>
    have h1 : step v w (.perform p) = some (w.removePath.goto p (.reopening nonce), []) := by
      simp only [step, perform, hpc, hpath]
    have h2 : step v (w.removePath.goto p (.reopening nonce)) (.perform p) =
        some ((w.removePath.goto p (.reopening nonce)).create p nonce, [.acquired p]) := by
      simp only [step, perform, World.goto_pc, if_true, World.goto_path, World.removePath]
    refine ⟨_, _, (Run.single h1).append (Run.single h2), fin _ ?_ ?_⟩
    · simp [World.create, World.goto_pc, Pc.held]
    · simp only [World.create, World.goto_pc, if_neg hqp, World.removePath]
      exact held_ne_of_held hq
  | releasing nonce i₀ =>
    have h1 : step v w (.perform p) = some (w.removePath.goto p .idle, [.released p]) := by
      simp only [step, perform, hpc]
    have h2 : step v (w.removePath.goto p .idle) (.call p) =
        some ({ w.removePath.goto p .idle with nonces := w.nonces + 1 }.goto p (.opening w.nonces), []) := by
      simp only [step, World.goto_pc, if_true]; rfl
    have h3 : step v ({ w.removePath.goto p .idle with nonces := w.nonces + 1 }.goto p (.opening w.nonces)) (.perform p) =
        some (({ w.removePath.goto p .idle with nonces := w.nonces + 1 }.goto p (.opening w.nonces)).create p w.nonces,
          [.acquired p]) := by
      simp only [step, perform, World.goto_pc, if_true, World.goto_path, World.removePath]
    refine ⟨_, _, ((Run.single h1).append (Run.single h2)).append (Run.single h3), fin _ ?_ ?_⟩
    · simp [World.create, World.goto_pc, Pc.held]
    · simp only [World.create, World.goto_pc, if_neg hqp, World.removePath]
      exact held_ne_of_held hq
  | idle | opening _ | stating _ | reading _ | reopening _ | writing _ _ | inside _ _ | checking _ _ =>
    rw [hpc] at hr; cases hr

/-- **The command lock excludes exactly while removals are safe**, for either store and any lock file left behind. -/
theorem lock_exclusive_while_removals_safe (v : Variant) (clock : Int) (leases : String → Option Int)
    (owner : Nat → String) (stale : Option File) :
    (∀ l u, RunOn (fun _ => RemovesSafely) (step v) (start clock leases owner stale) l u → Exclusive u) ∧
    (∀ l u p, Run (step v) (start clock leases owner stale) l u → ¬ RemovesSafely u (.perform p) →
      ∃ l' u', Run (step v) (start clock leases owner stale) (l ++ l') u' ∧ ¬ Exclusive u') := by
  constructor
  · intro l u h
    have hI : HeldAtPath u := RunOn.hist (fun _ w => HeldAtPath w) (start_heldAtPath clock leases owner stale)
      (fun _ _ _ _ _ hI hC hst => (step_moves hst).heldAtPath hC hI) h
    exact hI.exclusive
  · intro l u p h hn
    simp only [RemovesSafely, not_forall, not_not] at hn
    obtain ⟨hr, q, hqp, i, hq, hpath⟩ := hn
    obtain ⟨l', u', h', hx⟩ := unsafe_removal_breaks v u p q i hr hqp hq hpath
    exact ⟨l', u', h.append h', hx⟩

def abandoned : World := start 100000 (fun _ => none) (fun p => if p = 1 then "a" else "b") (some ⟨.object (some "dead") 9, 0⟩)

/-- Both takers find the lock stale; the first removes it and acquires, then the second removes the first's. -/
def twoTakers (primitives : Nat) : List Event :=
  [.call 1, .call 2] ++ List.replicate primitives (.perform 1) ++ List.replicate primitives (.perform 2) ++
    [.perform 1, .perform 1, .perform 2, .perform 2]

theorem replay_two_holders (v : Variant) (n : Nat) (h : (Sys.replay (step v) abandoned (twoTakers n)).any
      (fun r => decide ((r.1.pc 1).held ≠ none) && decide ((r.1.pc 2).held ≠ none)) = true) :
    ∃ l u, Run (step v) abandoned l u ∧ ¬ Exclusive u := by
  cases hr : Sys.replay (step v) abandoned (twoTakers n) with
  | none => rw [hr] at h; cases h
  | some r =>
    rw [hr] at h
    simp only [Option.any_some, Bool.and_eq_true, decide_eq_true_eq] at h
    exact ⟨r.2, r.1, Sys.replay_run _ _ _ _ hr, fun hx => absurd (hx 1 2 h.1 h.2) (by decide)⟩

/-- **Neither store's lock is exclusive**: two takers of one stale lock both acquire it. -/
theorem lock_not_exclusive : (∃ l u, Run (step withCommandLock) abandoned l u ∧ ¬ Exclusive u) ∧
      (∃ l u, Run (step withLock) abandoned l u ∧ ¬ Exclusive u) :=
  ⟨replay_two_holders withCommandLock 3 (by decide +kernel), replay_two_holders withLock 2 (by decide +kernel)⟩

end Lock
end Wollipog

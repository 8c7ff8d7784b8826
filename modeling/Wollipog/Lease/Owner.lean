import Wollipog.Lib.Standing
import Wollipog.Lease.File
/-!
# Owner — when a worktree lease has one live owner

A reclaimer removes whatever file is at the name when it comes to remove. So two owners may acquire one lease, save in
runs where a removal finds the file that was read again (`RemovesWhatItRead`).
-/
namespace Wollipog
namespace Lease

open Sys (Run RunOn)

variable {home : String → Nat}

/-- **The condition**: a reclaimer that removes finds at the name the record it read again. -/
def RemovesWhatItRead (w : World) : Event → Prop
  | .perform p _ => ∀ owner attempt existing, w.pc p = .removing owner attempt existing → w.content = some (.record existing)
  | _ => True

def Obs.ends (home : String → Nat) (owner : String) : Obs → Bool
  | .released o => o == owner
  | .transferred o _ => o == owner
  | .died p => p == home owner
  | _ => false

def holds (home : String → Nat) (l : List Obs) (owner : String) : Prop :=
  Sys.Standing (Obs.ends home owner) (.acquired owner) l

variable {pc : Pc} {p q : Nat} {x : Obs} {u : World} {r : Record} {owner : String} {o : List Obs}

theorem holds_concat {l : List Obs} (h : holds home (l ++ [x]) owner) :
    x = .acquired owner ∨ (holds home l owner ∧ x.ends home owner = false) := by
  rcases h.concat with rfl | hold
  · exact .inl rfl
  · exact .inr hold

def Knows (home : String → Nat) (w : World) (p : Nat) : Pc → Prop
  | .idle => True
  | .opening owner _ => home owner = p
  | .writing owner inode => home owner = p ∧ w.path = some ⟨inode, .unparsable⟩
  | .reading owner _ => home owner = p
  | .probing owner _ existing => home owner = p ∧ home existing.owner = existing.pid
  | .rereading owner _ existing => home owner = p ∧ home existing.owner = existing.pid ∧ w.alive existing.pid = false
  | .removing owner _ existing => home owner = p ∧ home existing.owner = existing.pid ∧ w.alive existing.pid = false
  | .reviewing fromOwner toOwner => home fromOwner = p ∧ home toOwner = p
  | .checking fromOwner toOwner => home fromOwner = p ∧ home toOwner = p ∧ w.content = some (.record ⟨fromOwner, p⟩)
  | .replacing fromOwner toOwner => home fromOwner = p ∧ home toOwner = p ∧ w.content = some (.record ⟨fromOwner, p⟩)
  | .releasing owner => home owner = p
  | .unlinking owner => home owner = p ∧ w.content = some (.record ⟨owner, p⟩)

def Pc.attached : Pc → Bool
  | .writing _ _ | .checking _ _ | .replacing _ _ | .unlinking _ => true
  | _ => false

structure Sound (home : String → Nat) (w : World) : Prop where
  knows : ∀ p, w.alive p = true → Knows home w p (w.pc p)
  named : ∀ r, w.content = some (.record r) → home r.owner = r.pid
  fresh : ∀ f, w.path = some f → f.inode < w.inodes
  opened : ∀ p o i, w.pc p = .writing o i → i < w.inodes
  writers : ∀ p q o o' i, w.pc p = .writing o i → w.pc q = .writing o' i → p = q

structure Inv (home : String → Nat) (l : List Obs) (w : World) : Prop where
  sound : Sound home w
  held : ∀ owner, holds home l owner → w.alive (home owner) = true ∧ w.content = some (.record ⟨owner, home owner⟩)
  once : ∀ a o b o' c, l = a ++ .acquired o :: b ++ .acquired o' :: c → o ≠ o' → ∃ x ∈ b, x.ends home o = true

theorem Inv.quiet {l : List Obs} {w : World} (hi : Inv home l w) (hu : Sound home u)
    (hheld : ∀ owner, holds home l owner → u.alive (home owner) = true ∧ u.content = some (.record ⟨owner, home owner⟩)) :
    Inv home (l ++ []) u := by
  rw [List.append_nil]
  exact ⟨hu, hheld, hi.once⟩

theorem Inv.emit {l : List Obs} {w : World} (hi : Inv home l w) (hu : Sound home u)
    (hheld : ∀ owner, holds home l owner → x.ends home owner = false →
      u.alive (home owner) = true ∧ u.content = some (.record ⟨owner, home owner⟩))
    (hnew : ∀ owner, x = .acquired owner →
      u.alive (home owner) = true ∧ u.content = some (.record ⟨owner, home owner⟩) ∧ ∀ o, holds home l o → o = owner) :
    Inv home (l ++ [x]) u := by
  refine ⟨hu, fun owner h => ?_, fun a o b o' c hsplit hne => ?_⟩
  · rcases holds_concat h with rfl | ⟨hold, hends⟩
    · obtain ⟨halive, hcontent, -⟩ := hnew owner rfl
      exact ⟨halive, hcontent⟩
    · exact hheld owner hold hends
  · rcases List.eq_nil_or_concat c with rfl | ⟨c', y, rfl⟩
    · have hsplit' : l ++ [x] = (a ++ .acquired o :: b) ++ [.acquired o'] := hsplit
      obtain ⟨rfl, hx⟩ := List.append_inj' hsplit' rfl
      rw [List.singleton_inj] at hx
      by_contra hnone
      have hall : ∀ z ∈ b, z.ends home o = false := by
        intro z hz
        rw [← Bool.not_eq_true]
        exact fun hend => hnone ⟨z, hz, hend⟩
      exact hne ((hnew o' hx).2.2 o ⟨a, b, rfl, hall⟩)
    · have hsplit' : l ++ [x] = (a ++ .acquired o :: b ++ .acquired o' :: c') ++ [y] := by rw [hsplit]; simp
      obtain ⟨rfl, -⟩ := List.append_inj' hsplit' rfl
      exact hi.once a o b o' c' rfl hne

theorem goto_pc (w : World) (p q : Nat) (pc : Pc) : (w.goto p pc).pc q = if q = p then pc else w.pc q := by
  simp only [World.goto, Function.update_apply]

theorem Knows.detached {w : World} (h : Knows home w p pc) (hpc : pc.attached = false)
    (halive : ∀ q, w.alive q = false → u.alive q = false) : Knows home u p pc := by
  cases pc with
  | writing => cases hpc
  | checking => cases hpc
  | replacing => cases hpc
  | unlinking => cases hpc
  | rereading owner attempt existing => exact ⟨h.1, h.2.1, halive _ h.2.2⟩
  | removing owner attempt existing => exact ⟨h.1, h.2.1, halive _ h.2.2⟩
  | _ => exact h

theorem Knows.same {w : World} (h : Knows home w p pc) (hpath : u.path = w.path)
    (halive : ∀ q, w.alive q = false → u.alive q = false) : Knows home u p pc := by
  have hcontent : u.content = w.content := congrArg (Option.map File.content) hpath
  cases pc with
  | writing owner inode => exact ⟨h.1, hpath.trans h.2⟩
  | checking fromOwner toOwner => exact ⟨h.1, h.2.1, hcontent.trans h.2.2⟩
  | replacing fromOwner toOwner => exact ⟨h.1, h.2.1, hcontent.trans h.2.2⟩
  | unlinking owner => exact ⟨h.1, hcontent.trans h.2⟩
  | rereading owner attempt existing => exact ⟨h.1, h.2.1, halive _ h.2.2⟩
  | removing owner attempt existing => exact ⟨h.1, h.2.1, halive _ h.2.2⟩
  | _ => exact h

theorem Sound.goto {w : World} (hs : Sound home w) (hp : w.alive p = true → Knows home w p pc)
    (hpc : ∀ o i, pc = .writing o i → w.pc p = .writing o i) : Sound home (w.goto p pc) := by
  have hwriting : ∀ q o i, (w.goto p pc).pc q = .writing o i → w.pc q = .writing o i := by
    intro q o i h
    rw [goto_pc] at h
    split at h
    · rename_i hq
      rw [hq]
      exact hpc o i h
    · exact h
  refine ⟨fun q hq => ?_, hs.named, hs.fresh, fun q o i h => hs.opened q o i (hwriting q o i h), fun q r o o' i hq hr => ?_⟩
  · rw [goto_pc]
    split
    · rename_i hqp
      subst hqp
      exact (hp hq).same rfl (fun _ h => h)
    · exact (hs.knows q hq).same rfl (fun _ h => h)
  · exact hs.writers q r o o' i (hwriting q o i hq) (hwriting r o' i hr)

theorem Sound.touch {w : World} (hs : Sound home w) {path : Option File} {inodes : Nat}
    (hothers : ∀ q, q ≠ p → w.alive q = true → (w.pc q).attached = false)
    (hp : Knows home { w with path := path, inodes := inodes } p pc) (hinodes : w.inodes ≤ inodes)
    (hnamed : ∀ r, path.map File.content = some (.record r) → home r.owner = r.pid) (hfresh : ∀ f, path = some f → f.inode < inodes)
    (hpc : ∀ o i, pc = .writing o i → i < inodes ∧ w.inodes ≤ i) :
    Sound home ({ w with path := path, inodes := inodes }.goto p pc) := by
  refine ⟨fun q hq => ?_, hnamed, hfresh, fun q o i h => ?_, fun q r o o' i hq hr => ?_⟩
  · rw [goto_pc]
    split
    · rename_i hqp
      subst hqp
      exact hp.same rfl (fun _ h => h)
    · rename_i hqp
      exact (hs.knows q hq).detached (hothers q hqp hq) (fun _ h => h)
  · rw [goto_pc] at h
    split at h
    · exact (hpc o i h).1
    · exact (hs.opened q o i h).trans_le hinodes
  · rw [goto_pc] at hq hr
    split at hq
    · rename_i hqp
      split at hr
      · rename_i hrp
        rw [hqp, hrp]
      · have hold := hs.opened r o' i hr
        have hnew := (hpc o i hq).2
        omega
    · split at hr
      · have hold := hs.opened q o i hq
        have hnew := (hpc o' i hr).2
        omega
      · exact hs.writers q r o o' i hq hr

theorem Sound.detached {w : World} (hs : Sound home w) (hcontent : ∀ r, w.content ≠ some (.record r)) (hq : w.alive q = true)
    (hwriting : ∀ owner inode, w.pc q = .writing owner inode → w.path ≠ some ⟨inode, .unparsable⟩) : (w.pc q).attached = false := by
  have hknows := hs.knows q hq
  cases hpc : w.pc q with
  | writing owner inode =>
    rw [hpc] at hknows
    exact absurd hknows.2 (hwriting owner inode hpc)
  | checking fromOwner toOwner | replacing fromOwner toOwner =>
    rw [hpc] at hknows
    exact absurd hknows.2.2 (hcontent _)
  | unlinking owner =>
    rw [hpc] at hknows
    exact absurd hknows.2 (hcontent _)
  | _ => rfl

theorem Sound.detached_of_free {w : World} (hs : Sound home w) (hfree : w.path = none) (hq : w.alive q = true) :
    (w.pc q).attached = false := by
  refine hs.detached (fun r hr => ?_) hq (fun owner inode _ hpath => ?_)
  · rw [World.content, hfree] at hr
    cases hr
  · rw [hfree] at hpath
    cases hpath

theorem Sound.detached_of_record {w : World} (hs : Sound home w) (hrecord : w.content = some (.record r))
    (hq : w.alive q = true) (hne : q ≠ r.pid) : (w.pc q).attached = false := by
  have hknows := hs.knows q hq
  have hclash : ∀ owner, w.content ≠ some (.record ⟨owner, q⟩) := by
    intro owner h
    rw [hrecord, Option.some.injEq, Content.record.injEq] at h
    rw [h] at hne
    exact hne rfl
  cases hpc : w.pc q with
  | writing owner inode =>
    rw [hpc] at hknows
    have hpath := hknows.2
    unfold World.content at hrecord
    rw [hpath] at hrecord
    cases hrecord
  | checking fromOwner toOwner | replacing fromOwner toOwner =>
    rw [hpc] at hknows
    exact absurd hknows.2.2 (hclash fromOwner)
  | unlinking owner =>
    rw [hpc] at hknows
    exact absurd hknows.2 (hclash owner)
  | _ => rfl

theorem Sound.detached_of_unwritten {w : World} (hs : Sound home w) {i : Nat} {o : String} (hp : w.pc p = .writing o i)
    (hpath : w.path = some ⟨i, .unparsable⟩) (hq : w.alive q = true) (hne : q ≠ p) : (w.pc q).attached = false := by
  refine hs.detached (fun r hr => ?_) hq (fun owner inode hpc hsame => ?_)
  · rw [World.content, hpath] at hr
    cases hr
  · rw [hpath, Option.some.injEq, File.mk.injEq] at hsame
    rw [← hsame.1] at hpc
    exact absurd (hs.writers q p owner o i hpc hp) hne

/-! ## What one step keeps -/

variable {l : List Obs} {w : World}

theorem Inv.moves (hi : Inv home l w) (hp : w.alive p = true → Knows home w p pc)
    (hpc : ∀ o i, pc ≠ .writing o i) : Inv home (l ++ []) (w.goto p pc) :=
  hi.quiet (hi.sound.goto hp (fun o i h => absurd h (hpc o i))) hi.held

theorem Inv.answers (hi : Inv home l w) (hx : ∀ owner, x ≠ .acquired owner) : Inv home (l ++ [x]) (w.goto p .idle) := by
  refine hi.emit (hi.sound.goto (fun _ => trivial) (fun o i h => by cases h)) (fun owner h _ => hi.held owner h) ?_
  intro owner h
  exact absurd h (hx owner)

theorem record_inj {c : Option Content} {r' : Record} (h : c = some (.record r)) (h' : c = some (.record r')) : r = r' := by
  rw [h, Option.some.injEq, Content.record.injEq] at h'
  exact h'

theorem Inv.holder (hi : Inv home l w) (hr : w.content = some (.record r)) (h : holds home l owner) : r = ⟨owner, home owner⟩ :=
  record_inj hr (hi.held owner h).2

theorem Inv.finds (hi : Inv home l w) {existing : Record} (halive : w.alive p = true)
    (hhome : home existing.owner = p) (hr : w.content = some (.record existing)) :
    Inv home (l ++ [.acquired existing.owner]) (w.goto p .idle) := by
  refine hi.emit (hi.sound.goto (fun _ => trivial) (fun o i h => by cases h)) (fun owner h _ => hi.held owner h) ?_
  intro owner h
  cases h
  have hpid : home existing.owner = existing.pid := hi.sound.named existing hr
  refine ⟨by rw [hhome]; exact halive, ?_, fun o ho => ?_⟩
  · have hcontent : w.content = some (.record ⟨existing.owner, home existing.owner⟩) := by rw [hpid]; exact hr
    exact hcontent
  · rw [hi.holder hr ho]

theorem Inv.creates (hi : Inv home l w) (hhome : home owner = p)
    (hfree : w.path = none) : Inv home (l ++ []) (w.create p owner) := by
  have hnobody : ∀ o, ¬ holds home l o := by
    intro o ho
    have hrecord := (hi.held o ho).2
    unfold World.content at hrecord
    rw [hfree] at hrecord
    cases hrecord
  refine hi.quiet (hi.sound.touch (fun q _ hq => hi.sound.detached_of_free hfree hq) ⟨hhome, rfl⟩ (Nat.le_succ _) ?_ ?_ ?_)
    (fun o ho => absurd ho (hnobody o))
  · intro r h
    cases h
  · intro f h
    cases h
    exact Nat.lt_succ_self _
  · intro o i h
    cases h
    exact ⟨Nat.lt_succ_self _, Nat.le_refl _⟩

theorem Inv.writes (hi : Inv home l w) {inode : Nat} (halive : w.alive p = true)
    (hpc : w.pc p = .writing owner inode) (hhome : home owner = p) (hpath : w.path = some ⟨inode, .unparsable⟩) :
    Inv home (l ++ [.acquired owner]) ((w.write inode ⟨owner, p⟩).goto p .idle) := by
  have hnobody : ∀ o, ¬ holds home l o := by
    intro o ho
    have hrecord := (hi.held o ho).2
    unfold World.content at hrecord
    rw [hpath] at hrecord
    cases hrecord
  have hwritten : w.path.map (fun f => if f.inode = inode then ⟨f.inode, .record ⟨owner, p⟩⟩ else f)
      = some ⟨inode, .record ⟨owner, p⟩⟩ := by
    rw [hpath]
    simp
  have hcontent : (w.write inode ⟨owner, p⟩).content = some (.record ⟨owner, p⟩) := by
    unfold World.content World.write
    dsimp only
    rw [hwritten]
    rfl
  refine hi.emit (hi.sound.touch (fun q hne hq => hi.sound.detached_of_unwritten hpc hpath hq hne) trivial (Nat.le_refl _) ?_ ?_ ?_)
    (fun o ho => absurd ho (hnobody o)) ?_
  · intro r h
    have hr := record_inj hcontent h
    rw [← hr]
    exact hhome
  · intro f h
    rw [hwritten, Option.some.injEq] at h
    rw [← h]
    exact hi.sound.fresh ⟨inode, .unparsable⟩ hpath
  · intro o i h
    cases h
  · intro o h
    cases h
    rw [hhome]
    exact ⟨halive, hcontent, fun o ho => absurd ho (hnobody o)⟩

theorem Sound.removed {w : World} (hs : Sound home w) (hr : w.content = some (.record r))
    (hlone : w.alive r.pid = false ∨ r.pid = p) (hp : Knows home { w with path := none } p pc) (hpc : ∀ o i, pc ≠ .writing o i) :
    Sound home ({ w with path := none }.goto p pc) := by
  refine hs.touch (fun q hne hq => hs.detached_of_record hr hq ?_) hp (Nat.le_refl _) ?_ ?_ (fun o i h => absurd h (hpc o i))
  · rintro rfl
    rcases hlone with hdead | rfl
    · rw [hq] at hdead
      cases hdead
    · exact hne rfl
  · intro r h
    cases h
  · intro f h
    cases h

theorem Inv.nobody (hi : Inv home l w) (hr : w.content = some (.record r))
    (hdead : w.alive r.pid = false) (owner : String) : ¬ holds home l owner := by
  intro h
  rw [hi.holder hr h] at hdead
  rw [(hi.held owner h).1] at hdead
  cases hdead

theorem Inv.renames (hi : Inv home l w) {fromOwner toOwner : String}
    (hhome : home toOwner = p) (hr : w.content = some (.record ⟨fromOwner, p⟩)) :
    Inv home (l ++ [.transferred fromOwner toOwner])
      ({ w with path := some ⟨w.inodes, .record ⟨toOwner, p⟩⟩, inodes := w.inodes + 1 }.goto p .idle) := by
  refine hi.emit (hi.sound.touch (fun q hne hq => hi.sound.detached_of_record hr hq hne) trivial (Nat.le_succ _) ?_ ?_ ?_)
    (fun o ho hends => ?_) ?_
  · intro r h
    cases h
    exact hhome
  · intro f h
    cases h
    exact Nat.lt_succ_self _
  · intro o i h
    cases h
  · have hsame := congrArg Record.owner (hi.holder hr ho)
    have hdiffers : (fromOwner == o) = false := hends
    rw [beq_eq_false_iff_ne] at hdiffers
    exact absurd hsame hdiffers
  · intro o h
    cases h

theorem Inv.unlinks (hi : Inv home l w)
    (hr : w.content = some (.record ⟨owner, p⟩)) : Inv home (l ++ [.released owner]) ({ w with path := none }.goto p .idle) := by
  refine hi.emit (hi.sound.removed hr (.inr rfl) trivial (fun o i h => by cases h)) (fun o ho hends => ?_) ?_
  · have hsame := congrArg Record.owner (hi.holder hr ho)
    have hdiffers : (owner == o) = false := hends
    rw [beq_eq_false_iff_ne] at hdiffers
    exact absurd hsame hdiffers
  · intro o h
    cases h

theorem Inv.dies (hi : Inv home l w) (p : Nat) :
    Inv home (l ++ [.died p]) { w with alive := Function.update w.alive p false } := by
  have hmono : ∀ q, w.alive q = false → Function.update w.alive p false q = false := by
    intro q hq
    rw [Function.update_apply]
    split
    · rfl
    · exact hq
  have hback : ∀ q, Function.update w.alive p false q = true → w.alive q = true := by
    intro q hq
    by_contra h
    rw [Bool.not_eq_true] at h
    rw [hmono q h] at hq
    cases hq
  refine hi.emit ⟨fun q hq => ?_, hi.sound.named, hi.sound.fresh, hi.sound.opened, hi.sound.writers⟩ (fun o ho hends => ?_) ?_
  · exact (hi.sound.knows q (hback q hq)).same rfl hmono
  · obtain ⟨halive, hcontent⟩ := hi.held o ho
    have hne : (p == home o) = false := hends
    rw [beq_eq_false_iff_ne] at hne
    refine ⟨?_, hcontent⟩
    have hkept : Function.update w.alive p false (home o) = w.alive (home o) := Function.update_of_ne (Ne.symm hne) _ _
    exact hkept.trans halive
  · intro o h
    cases h

theorem throws_inv {l : List Obs} {w : World} (hi : Inv home l w) (h : throws w p = some (u, o)) : Inv home (l ++ o) u := by
  unfold throws at h
  split at h
  · cases h
  all_goals cases h
  all_goals first
    | exact hi.answers (fun owner h => by cases h)
    | exact hi.moves (fun _ => trivial) (fun o i h => by cases h)

theorem perform_inv {l : List Obs} {w : World} {probed : Bool} (hi : Inv home l w)
    (halive : w.alive p = true) (hcareful : RemovesWhatItRead w (.perform p probed)) (h : perform w p probed = some (u, o)) :
    Inv home (l ++ o) u := by
  have hknows := hi.sound.knows p halive
  unfold perform at h
  split at h
  · cases h
  -- opening
  · rename_i owner attempt hpc
    rw [hpc] at hknows
    split at h
    · rename_i hfree
      cases h
      exact hi.creates hknows hfree
    · cases h
      exact hi.moves (fun _ => hknows) (fun o i h => by cases h)
  -- writing
  · rename_i owner inode hpc
    rw [hpc] at hknows
    cases h
    exact hi.writes halive hpc hknows.1 hknows.2
  -- reading
  · rename_i owner attempt hpc
    rw [hpc] at hknows
    split at h
    · rename_i existing hrecord
      split at h
      · rename_i hmine
        subst hmine
        cases h
        exact hi.finds halive hknows hrecord
      · split at h
        · cases h
          exact hi.answers (fun owner h => by cases h)
        · cases h
          exact hi.moves (fun _ => ⟨hknows, hi.sound.named _ hrecord⟩) (fun o i h => by cases h)
    · cases h
      exact hi.answers (fun owner h => by cases h)
  -- probing
  · rename_i owner attempt existing hpc
    rw [hpc] at hknows
    split at h
    · cases h
      exact hi.answers (fun owner h => by cases h)
    · rename_i hdead
      rw [Bool.or_eq_true, not_or, Bool.not_eq_true] at hdead
      cases h
      exact hi.moves (fun _ => ⟨hknows.1, hknows.2, hdead.1⟩) (fun o i h => by cases h)
  -- rereading
  · rename_i owner attempt existing hpc
    rw [hpc] at hknows
    split at h
    · cases h
      exact hi.moves (fun _ => hknows) (fun o i h => by cases h)
    · cases h
      exact hi.answers (fun owner h => by cases h)
  -- removing: the condition makes the file a dead process's
  · rename_i owner attempt existing hpc
    rw [hpc] at hknows
    obtain ⟨hhome, -, hdead⟩ := hknows
    have hrecord := hcareful owner attempt existing hpc
    have hnobody := hi.nobody hrecord hdead
    split at h
    · cases h
      exact hi.answers (fun owner h => by cases h)
    · dsimp only at h
      split at h
      · cases h
        exact hi.quiet (hi.sound.removed hrecord (.inl hdead) hhome (fun o i h => by cases h)) (fun o ho => absurd ho (hnobody o))
      · cases h
        refine hi.emit (hi.sound.removed hrecord (.inl hdead) trivial (fun o i h => by cases h))
          (fun o ho _ => absurd ho (hnobody o)) ?_
        intro o h
        cases h
  -- reviewing
  · rename_i fromOwner toOwner hpc
    rw [hpc] at hknows
    split at h
    · rename_i hrecord
      cases h
      exact hi.moves (fun _ => ⟨hknows.1, hknows.2, hrecord.1⟩) (fun o i h => by cases h)
    · cases h
      exact hi.moves (fun _ => trivial) (fun o i h => by cases h)
  -- checking
  · rename_i fromOwner toOwner hpc
    rw [hpc] at hknows
    split at h
    · cases h
      exact hi.moves (fun _ => hknows) (fun o i h => by cases h)
    · cases h
      exact hi.moves (fun _ => trivial) (fun o i h => by cases h)
  -- replacing
  · rename_i fromOwner toOwner hpc
    rw [hpc] at hknows
    cases h
    exact hi.renames hknows.2.1 hknows.2.2
  -- releasing
  · rename_i owner hpc
    rw [hpc] at hknows
    split at h
    · rename_i existing hrecord
      split at h
      · rename_i hmine
        subst hmine
        cases h
        have hpid : existing.pid = p := (hi.sound.named _ hrecord).symm.trans hknows
        subst hpid
        exact hi.moves (fun _ => ⟨hknows, hrecord⟩) (fun o i h => by cases h)
      · cases h
        exact hi.moves (fun _ => trivial) (fun o i h => by cases h)
    · cases h
      exact hi.moves (fun _ => trivial) (fun o i h => by cases h)
  -- unlinking
  · rename_i owner hpc
    rw [hpc] at hknows
    split at h
    · cases h
      exact hi.moves (fun _ => trivial) (fun o i h => by cases h)
    · cases h
      exact hi.unlinks hknows.2

theorem begins_inv {l : List Obs} {w : World} (hi : Inv home l w)
    (hpc : home owner = p → Knows home w p pc) (hnew : ∀ o i, pc ≠ .writing o i) (h : begins home w p owner pc = some (u, o)) :
    Inv home (l ++ o) u := by
  unfold begins at h
  split at h
  · rename_i hcall
    cases h
    exact hi.moves (fun _ => hpc hcall.2.2) hnew
  · cases h

/-- **One careful step keeps the invariant.** -/
theorem step_inv {l : List Obs} {w : World} {e : Event} (hi : Inv home l w) (hcareful : RemovesWhatItRead w e)
    (h : step home w e = some (u, o)) : Inv home (l ++ o) u := by
  cases e with
  | acquire p owner =>
    have hpc : home owner = p → Knows home w p (.opening owner 0) := fun hp => hp
    exact begins_inv hi hpc (fun o i h => by cases h) h
  | transfer p fromOwner toOwner =>
    rw [step] at h
    split at h
    · rename_i hto
      have hpc : home fromOwner = p → Knows home w p (.reviewing fromOwner toOwner) := fun hp => ⟨hp, hto⟩
      exact begins_inv hi hpc (fun o i h => by cases h) h
    · cases h
  | release p owner =>
    have hpc : home owner = p → Knows home w p (.releasing owner) := fun hp => hp
    exact begins_inv hi hpc (fun o i h => by cases h) h
  | perform p probed =>
    rw [step] at h
    split at h
    · rename_i halive
      exact perform_inv hi halive hcareful h
    · cases h
  | throws p =>
    rw [step] at h
    split at h
    · exact throws_inv hi h
    · cases h
  | die p =>
    rw [step] at h
    split at h
    · cases h
      exact hi.dies p
    · cases h

theorem Begun.inv {w : World} (h : Begun home w) : Inv home [] w := by
  refine ⟨⟨fun p _ => by rw [h.idle p]; trivial, h.named, h.fresh, fun p o i hw => ?_, fun p q o o' i hw _ => ?_⟩, ?_, ?_⟩
  · rw [h.idle p] at hw
    cases hw
  · rw [h.idle p] at hw
    cases hw
  · intro owner h
    exact absurd h Sys.not_standing_nil
  · intro a o b o' c hsplit
    simp at hsplit

/-- **A lease has one live owner in every careful run**: between two acquires of different owners the first one gave up. -/
theorem lease_exclusive_when {w u : World} {l a b c : List Obs} {o o' : String} (hw : Begun home w)
    (h : RunOn (fun _ => RemovesWhatItRead) (step home) w l u) (hsplit : l = a ++ .acquired o :: b ++ .acquired o' :: c)
    (hne : o ≠ o') : ∃ x ∈ b, x.ends home o = true := by
  have hinv : Inv home l u := by
    refine RunOn.hist (Inv home) hw.inv ?_ h
    intro _ _ _ _ _ hi hcareful hst
    exact step_inv hi hcareful hst
  exact hinv.once a o b o' c hsplit hne

def processes (owner : String) : Nat := if owner = "first" then 1 else if owner = "second" then 2 else 9

def abandoned : World :=
  { path := some ⟨0, .record ⟨"gone", 9⟩⟩, inodes := 1, alive := fun p => p != 9, pc := fun _ => .idle }

theorem abandoned_begun : Begun processes abandoned := by
  refine ⟨fun _ => rfl, fun r h => ?_, fun f h => ?_⟩
  · cases h
    decide
  · cases h
    decide

def bothReread : List Event :=
  [.acquire 1 "first", .acquire 2 "second"] ++ List.flatten (List.replicate 4 [.perform 1 false, .perform 2 false])

/-- One after the other: the first hands its lease over, the second reclaims it when the process died. -/
def inTurn : List Event :=
  [.acquire 1 "first"] ++ List.replicate 7 (.perform 1 false) ++ [.die 1, .acquire 2 "second"]
    ++ List.replicate 7 (.perform 2 false)

def removesWhatItReads (w : World) : Event → Bool
  | .perform p _ =>
    match w.pc p with
    | .removing _ _ existing => w.content == some (.record existing)
    | _ => true
  | _ => true

theorem removesWhatItReads_sound (w : World) (e : Event) (h : removesWhatItReads w e = true) : RemovesWhatItRead w e := by
  cases e with
  | perform p probed =>
    intro owner attempt existing hpc
    unfold removesWhatItReads at h
    dsimp only at h
    rw [hpc] at h
    exact beq_iff_eq.1 h
  | _ => trivial

theorem lease_exclusive_in_turn : ∃ x ∈ [Obs.died 1], x.ends processes "first" = true := by
  have hreplay : (Sys.replayOn removesWhatItReads (step processes) abandoned inTurn).map Prod.snd
      = some [.acquired "first", .died 1, .acquired "second"] := by decide +kernel
  obtain ⟨⟨u, l⟩, hr, rfl⟩ := Option.map_eq_some_iff.1 hreplay
  have hrun := Sys.replayOn_runOn removesWhatItReads_sound inTurn abandoned u [] _ .nil hr
  have hsplit : [Obs.acquired "first", .died 1, .acquired "second"] = [] ++ .acquired "first" :: [.died 1] ++ .acquired "second" :: [] :=
    rfl
  exact lease_exclusive_when abandoned_begun hrun hsplit (by decide)

/-- **Two live owners of one lease**: the second reclaimer removes the lease the first one has just acquired. -/
theorem reread_lease_removed : ¬ ∀ (home : String → Nat) (w u : World) (l a b c : List Obs) (o o' : String), Begun home w →
    Run (step home) w l u → l = a ++ .acquired o :: b ++ .acquired o' :: c → o ≠ o' → ∃ x ∈ b, x.ends home o = true := by
  intro hall
  have hreplay : (Sys.replay (step processes) abandoned
      (bothReread ++ List.replicate 3 (.perform 1 false) ++ List.replicate 3 (.perform 2 false))).map Prod.snd
      = some [.acquired "first", .acquired "second"] := by decide +kernel
  obtain ⟨u, hrun⟩ := Sys.replay_obs _ _ _ _ hreplay
  obtain ⟨x, hx, -⟩ := hall processes abandoned u _ [] [] [] "first" "second" abandoned_begun hrun rfl (by decide)
  cases hx

end Lease
end Wollipog

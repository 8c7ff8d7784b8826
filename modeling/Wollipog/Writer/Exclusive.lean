import Wollipog.Lib.Standing
import Wollipog.Writer.Guard
/-!
# Exclusive — one owner of a session's writer lock

A grant (`Held`) lasts for the stale window, counted from the time its touch wrote; until then the lock file names its
owner and is at least as fresh.
-/
namespace Wollipog
namespace Writer

open Sys (Run RunOn Standing)

variable {h : Host}

def Obs.grants : Obs → Option (String × Nat)
  | .acquired o t _ | .refreshed o t _ => some (o, t)
  | _ => none

def Obs.ends (owner : String) : Obs → Bool
  | .removed o _ => o == owner
  | _ => false

/-- A call of the owner returned true with a stamp, and the owner has not released the lock since. -/
def Granted (l : List Obs) (owner : String) (stamp : Nat) : Prop :=
  ∃ x : Obs, x.grants = some (owner, stamp) ∧ Standing (Obs.ends owner) x l

def Pc.stamp : Pc → Option Nat
  | .inside _ _ (.checking stamp _) | .inside _ _ (.leaving stamp _) => stamp
  | _ => none

def Held (h : Host) (l : List Obs) (w : World) (owner : String) (stamp : Nat) : Prop :=
  Granted l owner stamp ∨ ∃ p ∈ w.live, (w.pc p).stamp = some stamp ∧ h.owner p = owner

def World.expired (w : World) (stamp : Nat) : Prop := stamp + LOCK_STALE_MS ≤ w.clock

def Work.knows (h : Host) (l : List Obs) (w : World) (p : Nat) : Work → Prop
  | .reading (some m) | .judging m => ∃ f, w.lock = some f ∧ f.mtimeMs = m
  | .copying m now => (∃ f, w.lock = some f ∧ f.mtimeMs = m) ∧ m + LOCK_STALE_MS ≤ now ∧ now ≤ w.clock
  | .replacing m now tmp _ => ((∃ f, w.lock = some f ∧ f.mtimeMs = m) ∧ m + LOCK_STALE_MS ≤ now ∧ now ≤ w.clock) ∧
      tmp.text = h.owner p
  | .linking tmp => tmp.text = h.owner p
  | .writing i => (∃ f, w.lock = some f ∧ f.inode = i) ∧ ∀ o t, Held h l w o t → w.expired t
  | .timing | .removing => ∃ f, w.lock = some f ∧ f.text = h.owner p
  | .touching now => (∃ f, w.lock = some f ∧ f.text = h.owner p) ∧ now ≤ w.clock ∧ ∀ o t, Held h l w o t → t ≤ now
  | _ => True

structure Leased (h : Host) (l : List Obs) (w : World) : Prop where
  held : ∀ o t, Held h l w o t → t ≤ w.clock ∧ (w.expired t ∨ ∃ f, w.lock = some f ∧ f.text = o ∧ t ≤ f.mtimeMs)
  knows : ∀ p ∈ w.live, ∀ s t k, w.pc p = .inside s t k → k.knows h l w p
  replaced : ∀ o lock now, Obs.replaced o lock now ∈ l → ∃ f, lock = some f ∧ f.mtimeMs + LOCK_STALE_MS ≤ now
  removed : ∀ o lock, Obs.removed o lock ∈ l → ∃ f, lock = some f ∧ f.text = o

variable {u w : World} {k l : List Obs}

theorem Granted.append {o : String} {t : Nat} (hgr : Granted (l ++ k) o t) :
    (∃ x ∈ k, x.grants = some (o, t)) ∨ Granted l o t := by
  obtain ⟨x, hx, hstanding⟩ := hgr
  rcases hstanding.append with hmem | hold
  · exact .inl ⟨x, hmem, hx⟩
  · exact .inr ⟨x, hx, hold⟩

section Steps

variable {w u : World} {p : Nat} {pc : Pc} {l k : List Obs} {o : String} {t : Nat}

theorem held_sub (hp : p ∈ w.live) (hlive : u.live = w.live) (hpc : u.pc = Function.update w.pc p pc)
    (hstamp : ∀ t, pc.stamp = some t → (w.pc p).stamp = some t)
    (hobs : ∀ x ∈ k, ∀ o t, x.grants = some (o, t) → o = h.owner p ∧ (w.pc p).stamp = some t) (hheld : Held h (l ++ k) u o t) :
    Held h l w o t := by
  rcases hheld with hgr | ⟨q, hq, hst, howner⟩
  · rcases hgr.append with ⟨x, hx, hgrants⟩ | hold
    · obtain ⟨rfl, hst⟩ := hobs x hx o t hgrants
      exact .inr ⟨p, hp, hst, rfl⟩
    · exact .inl hold
  · rw [hlive] at hq
    rw [hpc, Function.update_apply] at hst
    split at hst
    · rename_i hqp
      subst hqp
      exact .inr ⟨q, hq, hstamp t hst, howner⟩
    · exact .inr ⟨q, hq, hst, howner⟩

variable {now : Nat} {x y : Work} {v : World} {tmp : LockFile} {stamp : Option Nat}

theorem Work.knows_mono (hk : x.knows h l w p) (hlock : u.lock = w.lock) (hclock : w.clock ≤ u.clock)
    (hheld : ∀ o t, Held h (l ++ k) u o t → Held h l w o t) : x.knows h (l ++ k) u p := by
  cases x with
  | reading mtimeMs =>
    cases mtimeMs with
    | none => trivial
    | some m =>
      unfold Work.knows at *
      rwa [hlock]
  | copying m now =>
    refine ⟨?_, hk.2.1, hk.2.2.trans hclock⟩
    rw [hlock]
    exact hk.1
  | replacing m now tmp attempt =>
    refine ⟨⟨?_, hk.1.2.1, hk.1.2.2.trans hclock⟩, hk.2⟩
    rw [hlock]
    exact hk.1.1
  | linking tmp => exact hk
  | writing i =>
    refine ⟨?_, fun o t ht => (hk.2 o t (hheld o t ht)).trans hclock⟩
    rw [hlock]
    exact hk.1
  | touching now =>
    refine ⟨?_, hk.2.1.trans hclock, fun o t ht => hk.2.2 o t (hheld o t ht)⟩
    rw [hlock]
    exact hk.1
  | _ =>
    unfold Work.knows at *
    first
      | trivial
      | rwa [hlock]

theorem Leased.keep (hl : Leased h l w) (hlive : u.live = w.live) (hpc : u.pc = Function.update w.pc p pc)
    (hlock : u.lock = w.lock) (hclock : u.clock = w.clock) (hheld : ∀ o t, Held h (l ++ k) u o t → Held h l w o t)
    (hself : ∀ s t x, pc = .inside s t x → x.knows h (l ++ k) u p)
    (hreplaced : ∀ o lock now, Obs.replaced o lock now ∉ k) (hremoved : ∀ o lock, Obs.removed o lock ∉ k) :
    Leased h (l ++ k) u := by
  refine ⟨fun o t ht => ?_, fun q hq s tok x hx => ?_, fun o lock now hmem => ?_, fun o lock hmem => ?_⟩
  · rw [hlock, World.expired, hclock]
    exact hl.held o t (hheld o t ht)
  · rw [hlive] at hq
    rw [hpc, Function.update_apply] at hx
    split at hx
    · rename_i hqp
      subst hqp
      exact hself s tok x hx
    · exact Work.knows_mono (hl.knows q hq s tok x hx) hlock hclock.ge hheld
  · rcases List.mem_append.1 hmem with hold | hnew
    · exact hl.replaced o lock now hold
    · exact absurd hnew (hreplaced o lock now)
  · rcases List.mem_append.1 hmem with hold | hnew
    · exact hl.removed o lock hold
    · exact absurd hnew (hremoved o lock)

variable {s : Section} {tok : Nat}

theorem Leased.change (hl : Leased h l w) (hg : Guarded h w) (hp : p ∈ w.live)
    (hin : w.pc p = .inside s tok x) (hlive : u.live = w.live) (hpc : u.pc = Function.update w.pc p pc)
    (hheld : ∀ o t, Held h (l ++ k) u o t → t ≤ u.clock ∧ (u.expired t ∨ ∃ f, u.lock = some f ∧ f.text = o ∧ t ≤ f.mtimeMs))
    (hself : ∀ s t x, pc = .inside s t x → x.knows h (l ++ k) u p)
    (hreplaced : ∀ o lock now, Obs.replaced o lock now ∈ k → ∃ f, lock = some f ∧ f.mtimeMs + LOCK_STALE_MS ≤ now)
    (hremoved : ∀ o lock, Obs.removed o lock ∈ k → ∃ f, lock = some f ∧ f.text = o) : Leased h (l ++ k) u := by
  refine ⟨hheld, fun q hq s' tok' x' hx => ?_, fun o lock now hmem => ?_, fun o lock hmem => ?_⟩
  · rw [hlive] at hq
    rw [hpc, Function.update_apply] at hx
    split at hx
    · rename_i hqp
      subst hqp
      exact hself s' tok' x' hx
    · rename_i hqp
      exact absurd (hg.alone hq hp (by rw [hx]; rfl) (by rw [hin]; rfl)) hqp
  · rcases List.mem_append.1 hmem with hold | hnew
    · exact hl.replaced o lock now hold
    · exact hreplaced o lock now hnew
  · rcases List.mem_append.1 hmem with hold | hnew
    · exact hl.removed o lock hold
    · exact hremoved o lock hnew

theorem Leased.expired_of_free (hl : Leased h l w) (hfree : w.lock = none) (hheld : Held h l w o t) : w.expired t := by
  obtain ⟨-, hexpired | ⟨f, hf, -⟩⟩ := hl.held o t hheld
  · exact hexpired
  · rw [hfree] at hf
    cases hf

theorem Leased.expired_of_other {f : LockFile} (hl : Leased h l w) (hf : w.lock = some f) (hheld : Held h l w o t)
    (hne : o ≠ f.text) : w.expired t := by
  obtain ⟨-, hexpired | ⟨g, hg, htext, -⟩⟩ := hl.held o t hheld
  · exact hexpired
  · rw [hf, Option.some.injEq] at hg
    rw [hg] at hne
    exact absurd htext.symm hne

structure Outside (w u : World) (p : Nat) (k : List Obs) : Prop where
  lock : u.lock = w.lock
  clock : u.clock = w.clock
  live : u.live = w.live
  goes : ∃ pc, u.pc = Function.update w.pc p pc ∧ pc.stamp = none ∧
    ∀ s t x, pc = .inside s t x → x = .stating ∨ x = .reading none
  obs : ∀ x ∈ k, ∃ o, x = .refused o

theorem Outside.leased (ho : Outside w u p k) (hl : Leased h l w) (hp : p ∈ w.live) : Leased h (l ++ k) u := by
  obtain ⟨pc, hpc, hstamp, hinside⟩ := ho.goes
  refine hl.keep ho.live hpc ho.lock ho.clock (fun o t => held_sub hp ho.live hpc ?_ ?_) ?_ ?_ ?_
  · intro t ht
    rw [hstamp] at ht
    cases ht
  · intro x hx o t hgrants
    obtain ⟨o', rfl⟩ := ho.obs x hx
    cases hgrants
  · intro s t x hx
    rcases hinside s t x hx with rfl | rfl <;> trivial
  · intro o lock now hmem
    obtain ⟨o', hx⟩ := ho.obs _ hmem
    cases hx
  · intro o lock hmem
    obtain ⟨o', hx⟩ := ho.obs _ hmem
    cases hx

theorem outside_goto {pc : Pc} (hstamp : pc.stamp = none) (hinside : pc.isInside = false) : Outside w (w.goto p pc) p [] := by
  refine ⟨rfl, rfl, rfl, ⟨pc, rfl, hstamp, fun s t x hx => ?_⟩, fun x hx => by cases hx⟩
  rw [hx] at hinside
  cases hinside

theorem outside_refused (o : String) : Outside w (w.goto p .idle) p [.refused o] := by
  refine ⟨rfl, rfl, rfl, ⟨.idle, rfl, rfl, fun s t x hx => by cases hx⟩, fun x hx => ?_⟩
  rw [List.mem_singleton] at hx
  exact ⟨o, hx⟩

theorem outside_returns (s : Section) : Outside w (h.returns w p s none).1 p (h.returns w p s none).2 := by
  refine ⟨rfl, rfl, rfl, ⟨.idle, rfl, rfl, fun s t x hx => by cases hx⟩, fun x hx => ?_⟩
  cases s with
  | release => cases hx
  | _ =>
    simp only [Host.returns, List.mem_singleton] at hx
    exact ⟨_, hx⟩

theorem outside_draws (s : Section) : Outside w (Host.withLockGuard w p s) p [] :=
  ⟨rfl, rfl, rfl, ⟨_, rfl, rfl, fun s t x hx => by cases hx⟩, fun x hx => by cases hx⟩

theorem outside_begins (hlock : v.lock = w.lock) (hclock : v.clock = w.clock) (hlive : v.live = w.live) (hpc : v.pc = w.pc)
    (s : Section) (t : Nat) : Outside w (Host.begins v p s t) p [] := by
  refine ⟨hlock, hclock, hlive, ⟨_, congrArg (fun f => Function.update f p _) hpc, ?_, ?_⟩, fun x hx => by cases hx⟩
  · cases s <;> rfl
  · intro s' t' x hx
    cases s <;> cases hx <;> simp

theorem outside_publishes (free : Bool) :
    Outside w ({ w with inodes := w.inodes + 1 }.goto p (.linking free ⟨w.inodes, h.owner p, w.clock⟩)) p [] :=
  ⟨rfl, rfl, rfl, ⟨_, rfl, rfl, fun s t x hx => by cases hx⟩, fun x hx => by cases hx⟩

theorem enter_outside {e : Entry} (hst : h.enter w p s tok e = some (u, k)) : Outside w u p k := by
  cases e with
  | drafting =>
    cases hst
    exact ⟨rfl, rfl, rfl, ⟨_, rfl, rfl, fun s t x hx => by cases hx⟩, fun x hx => by cases hx⟩
  | linking tmp =>
    dsimp only [Host.enter] at hst
    split at hst <;> cases hst
    · exact outside_begins (w := w) (v := { w with guard := some tmp }) rfl rfl rfl rfl s tok
    · exact outside_goto rfl rfl
  | opening =>
    dsimp only [Host.enter] at hst
    split at hst <;> cases hst
    · exact ⟨rfl, rfl, rfl, ⟨_, rfl, rfl, fun s t x hx => by cases hx⟩, fun x hx => by cases hx⟩
    · exact outside_goto rfl rfl
  | writing i =>
    cases hst
    exact outside_begins (w := w)
      (v := { w with guard := w.guard.map (fun g => if g.inode = i then ⟨i, some (h.record p tok), w.clock⟩ else g) })
      rfl rfl rfl rfl s tok
  | reading =>
    dsimp only [Host.enter] at hst
    split at hst <;> (cases hst; exact outside_goto rfl rfl)
  | dating raw =>
    dsimp only [Host.enter] at hst
    split at hst
    · cases hst
      exact outside_goto rfl rfl
    · split at hst
      · cases hst
        exact outside_goto rfl rfl
      · split at hst
        · split at hst
          · split at hst <;> (cases hst; exact outside_goto rfl rfl)
          · cases hst
            exact outside_goto rfl rfl
        · cases hst
          exact outside_goto rfl rfl
  | probing => cases hst
  | starting => cases hst
  | rereading r =>
    dsimp only [Host.enter] at hst
    split at hst <;> (cases hst; exact outside_goto rfl rfl)
  | breaking r =>
    dsimp only [Host.enter] at hst
    split at hst <;> cases hst
    · exact outside_goto rfl rfl
    · exact ⟨rfl, rfl, rfl, ⟨_, rfl, rfl, fun s t x hx => by cases hx⟩, fun x hx => by cases hx⟩
  | waiting =>
    cases hst
    exact outside_goto rfl rfl

theorem probes_outside {found : Host.Probe} (hst : h.probes w p found = some (u, k)) : Outside w u p k := by
  unfold Host.probes at hst
  split at hst
  · split at hst
    · split at hst
      · cases hst
      · cases hst
        exact outside_goto rfl rfl
    · split at hst <;> (cases hst; exact outside_goto rfl rfl)
    · cases hst
      exact outside_goto rfl rfl
  · cases hst

theorem starts_outside {start : Option String} (hst : h.starts w p start = some (u, k)) : Outside w u p k := by
  unfold Host.starts at hst
  split at hst
  · split at hst
    · cases hst
    · split at hst <;> (cases hst; exact outside_goto rfl rfl)
  · cases hst

theorem givesUp_outside (hst : h.givesUp w p = some (u, k)) : Outside w u p k := by
  unfold Host.givesUp at hst
  split at hst
  · cases hst
    exact outside_returns _
  · cases hst

/-! ## Steps inside the guard -/

theorem Leased.goes (hl : Leased h l w) (hp : p ∈ w.live) (hpc : w.pc p = .inside s tok x)
    (hstamp : ∀ t, (Pc.inside s tok y).stamp = some t → (Pc.inside s tok x).stamp = some t)
    (hgoes : u.pc = Function.update w.pc p (.inside s tok y)) (hlock : u.lock = w.lock) (hclock : u.clock = w.clock)
    (hlive : u.live = w.live) (hy : (∀ o t, Held h (l ++ []) u o t → Held h l w o t) → y.knows h (l ++ []) u p) :
    Leased h (l ++ []) u := by
  have hsub : ∀ o t, Held h (l ++ []) u o t → Held h l w o t := by
    refine fun o t => held_sub hp hlive hgoes ?_ (fun x hx => by cases hx)
    rw [hpc]
    exact hstamp
  refine hl.keep hlive hgoes hlock hclock hsub ?_ (fun o lock now hmem => by cases hmem) (fun o lock hmem => by cases hmem)
  intro s' t' x' hx
  cases hx
  exact hy hsub

theorem Leased.fails (hl : Leased h l w) (hp : p ∈ w.live) (hpc : w.pc p = .inside s tok x) :
    Leased h (l ++ []) (Host.finishes w p s tok none) :=
  hl.goes hp hpc (fun t ht => by cases ht) rfl rfl rfl rfl (fun _ => trivial)

theorem Host.returns_obs (h : Host) {s : Section} {x : Obs} (hx : x ∈ (h.returns w p s stamp).2) :
    (∃ o, x = .refused o) ∨ ∃ t, stamp = some t ∧ (x = .acquired (h.owner p) t w.clock ∨ x = .refreshed (h.owner p) t w.clock) := by
  cases stamp with
  | none =>
    cases s <;> simp only [Host.returns, List.mem_singleton, List.not_mem_nil] at hx
    all_goals exact .inl ⟨_, hx⟩
  | some t =>
    refine .inr ⟨t, rfl, ?_⟩
    cases s <;> simp only [Host.returns, List.mem_singleton, List.not_mem_nil] at hx
    case refresh => exact .inr hx
    all_goals exact .inl hx

theorem Leased.returns {s : Section} (hl : Leased h l w) (hp : p ∈ w.live)
    (hstamp : (w.pc p).stamp = stamp) (hlock : v.lock = w.lock) (hclock : v.clock = w.clock)
    (hlive : v.live = w.live) (hvpc : v.pc = w.pc) : Leased h (l ++ (h.returns v p s stamp).2) (h.returns v p s stamp).1 := by
  have hgoes : (h.returns v p s stamp).1.pc = Function.update w.pc p .idle := by
    rw [← hvpc]
    rfl
  have hobs : ∀ x ∈ (h.returns v p s stamp).2, (∃ o, x = .refused o) ∨
      ∃ t, stamp = some t ∧ (x = .acquired (h.owner p) t v.clock ∨ x = .refreshed (h.owner p) t v.clock) :=
    fun x hx => h.returns_obs hx
  refine hl.keep (u := (h.returns v p s stamp).1) hlive hgoes hlock hclock
    (fun o t => held_sub hp hlive hgoes (fun t ht => by cases ht) (fun x hx o t hgr => ?_)) (fun s t x hx => by cases hx) ?_ ?_
  · rcases hobs x hx with ⟨o', rfl⟩ | ⟨t', hst, rfl | rfl⟩
    · cases hgr
    · cases hgr
      exact ⟨rfl, hstamp.trans hst⟩
    · cases hgr
      exact ⟨rfl, hstamp.trans hst⟩
  · intro o lock now hmem
    rcases hobs _ hmem with ⟨o', hx⟩ | ⟨t', -, hx | hx⟩ <;> cases hx
  · intro o lock hmem
    rcases hobs _ hmem with ⟨o', hx⟩ | ⟨t', -, hx | hx⟩ <;> cases hx

/-- A step that is not a touch brings no grant. -/
theorem held_quiet (hp : p ∈ w.live) (ht : Held h (l ++ k) u o t) (hlive : u.live = w.live)
    (hgoes : u.pc = Function.update w.pc p (.inside s tok y)) (hnone : (Pc.inside s tok y).stamp = none)
    (hobs : ∀ z ∈ k, z.grants = none) : Held h l w o t := by
  refine held_sub hp hlive hgoes (fun t ht => ?_) (fun z hz o t hgr => ?_) ht
  · rw [hnone] at ht
    cases ht
  · rw [hobs z hz] at hgr
    cases hgr

theorem replacing_leased {mtimeMs : Nat} {attempt : Nat} (hl : Leased h l w) (hg : Guarded h w) (hp : p ∈ w.live) (hpc : w.pc p = .inside s tok (.replacing mtimeMs now tmp attempt))
    (hst : h.work w p s tok (.replacing mtimeMs now tmp attempt) = some (u, k)) : Leased h (l ++ k) u := by
  have hk := hl.knows p hp s tok _ hpc
  obtain ⟨⟨⟨f, hlock, hmtime⟩, hstale, hnow⟩, howner⟩ := hk
  cases hst
  -- the replaced file is the inspected one, so every grant it carried has expired
  refine hl.change hg hp hpc rfl rfl (fun o t ht => ?_) (fun s' t' x' hx => ?_) (fun o lock now' hmem => ?_)
    (fun o lock hmem => ?_)
  · have hold := hl.held o t (held_quiet hp ht rfl rfl rfl (by simp [Obs.grants]))
    refine ⟨hold.1, .inl ?_⟩
    rcases hold.2 with hexpired | ⟨g, hg', -, hfresh⟩
    · exact hexpired
    · rw [hlock, Option.some.injEq] at hg'
      have hexpired : t + LOCK_STALE_MS ≤ w.clock := by
        rw [← hg', hmtime] at hfresh
        omega
      exact hexpired
  · cases hx
    exact ⟨tmp, rfl, howner⟩
  · rw [List.mem_singleton] at hmem
    cases hmem
    exact ⟨f, hlock, by rw [hmtime]; exact hstale⟩
  · rw [List.mem_singleton] at hmem
    cases hmem

theorem touching_leased (hl : Leased h l w) (hg : Guarded h w) (hp : p ∈ w.live) (hpc : w.pc p = .inside s tok (.touching now))
    (hst : h.work w p s tok (.touching now) = some (u, k)) : Leased h (l ++ k) u := by
  have hk := hl.knows p hp s tok _ hpc
  obtain ⟨⟨f, hlock, howner⟩, hnow, hlast⟩ := hk
  simp only [Host.work, hlock] at hst
  cases hst
  -- a touch keeps the owner and moves its file past every stamp
  have hgoes : (Host.finishes { w with lock := some { f with mtimeMs := now } } p s tok (some now)).pc =
      Function.update w.pc p (.inside s tok (.checking (some now) 0)) := rfl
  refine hl.change hg hp hpc rfl hgoes (fun o t ht => ?_) (fun s' t' x' hx => ?_)
    (fun o lock now' hmem => by cases hmem) (fun o lock hmem => by cases hmem)
  · rcases ht with hgr | ⟨q, hq, hstamp, rfl⟩
    · rw [List.append_nil] at hgr
      obtain ⟨hclock, hstate⟩ := hl.held o t (.inl hgr)
      refine ⟨hclock, ?_⟩
      rcases hstate with hexpired | ⟨g, hg', htext, -⟩
      · exact .inl hexpired
      · rw [hlock, Option.some.injEq] at hg'
        subst hg'
        exact .inr ⟨_, rfl, htext, hlast o t (.inl hgr)⟩
    · have hplace : (if q = p then Pc.inside s tok (.checking (some now) 0) else w.pc q).stamp = some t := by
        rw [← goto_pc]
        exact hstamp
      split at hplace
      · rename_i hqp
        subst hqp
        obtain rfl : now = t := Option.some.inj hplace
        exact ⟨hnow, .inr ⟨_, rfl, howner, Nat.le_refl _⟩⟩
      · have hold : Held h l w (h.owner q) t := .inr ⟨q, hq, hplace, rfl⟩
        obtain ⟨hclock, hstate⟩ := hl.held _ t hold
        refine ⟨hclock, ?_⟩
        rcases hstate with hexpired | ⟨g, hg', htext, -⟩
        · exact .inl hexpired
        · rw [hlock, Option.some.injEq] at hg'
          subst hg'
          exact .inr ⟨_, rfl, htext, hlast _ t hold⟩
  · cases hx
    trivial

theorem removing_leased (hl : Leased h l w) (hg : Guarded h w) (hp : p ∈ w.live) (hpc : w.pc p = .inside s tok .removing)
    (hst : h.work w p s tok .removing = some (u, k)) : Leased h (l ++ k) u := by
  have hk := hl.knows p hp s tok _ hpc
  obtain ⟨f, hlock, howner⟩ := hk
  cases hst
  refine hl.change hg hp hpc rfl rfl (fun o t ht => ?_) (fun s' t' x' hx => ?_) (fun o lock now' hmem => ?_)
    (fun o lock hmem => ?_)
  · have hold := held_quiet hp ht rfl rfl rfl (by simp [Obs.grants])
    have hne : o ≠ f.text := by
      rcases ht with ⟨x, hgrants, hstanding⟩ | ⟨q, hq, hstamp, -⟩
      · rcases hstanding.concat with rfl | ⟨-, hends⟩
        · cases hgrants
        · have hother : (h.owner p == o) = false := hends
          rw [howner]
          exact (beq_eq_false_iff_ne.1 hother).symm
      · rw [Host.finishes, goto_pc] at hstamp
        split at hstamp
        · cases hstamp
        · rename_i hqp
          have hattached : (w.pc q).attached = true := by
            cases hqc : w.pc q <;> rw [hqc] at hstamp <;> first | rfl | cases hstamp
          exact absurd (hg.alone hq hp hattached (by rw [hpc]; rfl)) hqp
    exact ⟨(hl.held o t hold).1, .inl (hl.expired_of_other hlock hold hne)⟩
  · cases hx
    trivial
  · rw [List.mem_singleton] at hmem
    cases hmem
  · rw [List.mem_singleton] at hmem
    cases hmem
    exact ⟨f, hlock, howner⟩

theorem work_leased (hl : Leased h l w) (hg : Guarded h w) (hp : p ∈ w.live)
    (hpc : w.pc p = .inside s tok x) (hst : h.work w p s tok x = some (u, k)) : Leased h (l ++ k) u := by
  have hk := hl.knows p hp s tok x hpc
  cases x with
  | stating =>
    dsimp only [Host.work] at hst
    split at hst
    · cases hst
      exact hl.goes hp hpc (fun t ht => by cases ht) rfl rfl rfl rfl (fun _ => trivial)
    · rename_i f hlock
      split at hst
      · cases hst
        exact hl.fails hp hpc
      · cases hst
        exact hl.goes hp hpc (fun t ht => by cases ht) rfl rfl rfl rfl (fun _ => ⟨f, hlock, rfl⟩)
  | reading mtimeMs =>
    dsimp only [Host.work] at hst
    split at hst
    · split at hst
      · cases hst
        exact hl.goes hp hpc (fun t ht => by cases ht) rfl rfl rfl rfl (fun _ => trivial)
      · cases hst
        exact hl.fails hp hpc
    · rename_i f hlock
      split at hst
      · rename_i hmine
        split at hst <;>
          (cases hst; exact hl.goes hp hpc (fun t ht => by cases ht) rfl rfl rfl rfl (fun _ => ⟨f, hlock, hmine⟩))
      · split at hst
        · cases hst
          exact hl.goes hp hpc (fun t ht => by cases ht) rfl rfl rfl rfl (fun _ => hk)
        · cases hst
          exact hl.fails hp hpc
  | judging mtimeMs =>
    dsimp only [Host.work] at hst
    split at hst
    · cases hst
      exact hl.fails hp hpc
    · rename_i hstale
      cases hst
      refine hl.goes hp hpc (fun t ht => by cases ht) rfl rfl rfl rfl (fun _ => ⟨hk, ?_, Nat.le_refl _⟩)
      have hwindow : 0 < LOCK_STALE_MS := by decide
      omega
  | copying mtimeMs now =>
    cases hst
    exact hl.goes hp hpc (fun t ht => by cases ht) rfl rfl rfl rfl (fun _ => ⟨hk, rfl⟩)
  | replacing mtimeMs now tmp attempt=> exact replacing_leased hl hg hp hpc hst
  | drafting =>
    cases hst
    exact hl.goes hp hpc (fun t ht => by cases ht) rfl rfl rfl rfl (fun _ => rfl)
  | linking tmp =>
    dsimp only [Host.work] at hst
    split at hst
    · rename_i hfree
      cases hst
      refine hl.change hg hp hpc rfl rfl (fun o t ht => ?_) (fun s' t' x' hx => ?_) (fun o lock now' hmem => by cases hmem)
        (fun o lock hmem => by cases hmem)
      · have hold := held_quiet hp ht rfl rfl rfl (fun z hz => by cases hz)
        exact ⟨(hl.held o t hold).1, .inl (hl.expired_of_free hfree hold)⟩
      · cases hx
        exact ⟨tmp, rfl, hk⟩
    · cases hst
      exact hl.fails hp hpc
  | opening =>
    dsimp only [Host.work] at hst
    split at hst
    · rename_i hfree
      cases hst
      have hexpired : ∀ o t, Held h l w o t → w.expired t := fun o t ht => hl.expired_of_free hfree ht
      refine hl.change hg hp hpc rfl rfl (fun o t ht => ?_) (fun s' t' x' hx => ?_) (fun o lock now' hmem => by cases hmem)
        (fun o lock hmem => by cases hmem)
      · have hold := held_quiet hp ht rfl rfl rfl (fun z hz => by cases hz)
        exact ⟨(hl.held o t hold).1, .inl (hexpired o t hold)⟩
      · cases hx
        exact ⟨⟨_, rfl, rfl⟩, fun o t ht => hexpired o t (held_quiet hp ht rfl rfl rfl (fun z hz => by cases hz))⟩
    · cases hst
      exact hl.fails hp hpc
  | writing i =>
    obtain ⟨⟨f, hlock, hinode⟩, hexpired⟩ := hk
    cases hst
    refine hl.change hg hp hpc rfl rfl (fun o t ht => ?_) (fun s' t' x' hx => ?_) (fun o lock now' hmem => by cases hmem)
      (fun o lock hmem => by cases hmem)
    · have hold := held_quiet hp ht rfl rfl rfl (fun z hz => by cases hz)
      exact ⟨(hl.held o t hold).1, .inl (hexpired o t hold)⟩
    · cases hx
      refine ⟨⟨i, h.owner p, w.clock⟩, ?_, rfl⟩
      have hwritten : w.lock.map (fun f => if f.inode = i then ⟨i, h.owner p, w.clock⟩ else f) = some ⟨i, h.owner p, w.clock⟩ := by
        rw [hlock, Option.map_some, if_pos hinode]
      exact hwritten
  | timing =>
    cases hst
    refine hl.goes hp hpc (fun t ht => by cases ht) rfl rfl rfl rfl (fun hheld => ⟨hk, Nat.le_refl _, fun o t ht => ?_⟩)
    exact (hl.held o t (hheld o t ht)).1
  | touching now=> exact touching_leased hl hg hp hpc hst
  | removing=> exact removing_leased hl hg hp hpc hst
  | checking stamp attempt =>
    dsimp only [Host.work] at hst
    split at hst
    · cases hst
      exact hl.goes (y := .leaving stamp attempt) hp hpc (fun t ht => ht) rfl rfl rfl rfl (fun _ => trivial)
    · cases hst
      exact hl.returns hp (by rw [hpc]; rfl) rfl rfl rfl rfl
  | leaving stamp attempt =>
    cases hst
    exact hl.returns (v := { w with guard := none }) hp (by rw [hpc]; rfl) rfl rfl rfl rfl

theorem throws_leased {code : Errno} (hl : Leased h l w) (hp : p ∈ w.live) (hst : h.throws w p code = some (u, k)) :
    Leased h (l ++ k) u := by
  cases hpc : w.pc p with
  | idle =>
    simp only [Host.throws, hpc] at hst
    cases hst
  | publishing free | linking free tmp =>
    simp only [Host.throws, hpc] at hst
    split at hst <;> cases hst
    · exact (outside_draws _).leased hl hp
    · exact (outside_refused _).leased hl hp
  | entering s tok e =>
    refine Outside.leased (p := p) ?_ hl hp
    cases e with
    | drafting | linking tmp =>
      simp only [Host.throws, hpc] at hst
      split at hst <;> cases hst
      · exact outside_goto rfl rfl
      · exact outside_returns s
    | opening | writing i =>
      simp only [Host.throws, hpc] at hst
      cases hst
      exact outside_returns s
    | probing holder ageMs | starting holder | waiting =>
      simp only [Host.throws, hpc] at hst
      cases hst
    | _ =>
      simp only [Host.throws, hpc] at hst
      cases hst
      exact outside_goto rfl rfl
  | inside s tok x =>
    have hretries : ∀ stamp attempt, (w.pc p).stamp = stamp → h.retries w p s tok stamp attempt = (u, k) → Leased h (l ++ k) u := by
      intro stamp attempt hstamp hret
      unfold Host.retries at hret
      split at hret
      · cases hret
        refine hl.goes (y := .checking stamp (attempt + 1)) hp hpc (fun t ht => ?_) rfl rfl rfl rfl (fun _ => trivial)
        rw [← hpc, hstamp]
        exact ht
      · have hu : u = (h.returns w p s stamp).1 := (congrArg Prod.fst hret).symm
        have hk : k = (h.returns w p s stamp).2 := (congrArg Prod.snd hret).symm
        rw [hu, hk]
        exact hl.returns hp hstamp rfl rfl rfl rfl
    cases x with
    | drafting | linking tmp =>
      simp only [Host.throws, hpc] at hst
      split at hst <;> cases hst
      · exact hl.goes hp hpc (fun t ht => by cases ht) rfl rfl rfl rfl (fun _ => trivial)
      · exact hl.fails hp hpc
    | replacing mtimeMs now tmp attempt =>
      simp only [Host.throws, hpc] at hst
      split at hst <;> cases hst
      · exact hl.goes hp hpc (fun t ht => by cases ht) rfl rfl rfl rfl (fun _ => hl.knows p hp s tok _ hpc)
      · exact hl.fails hp hpc
    | checking stamp attempt | leaving stamp attempt =>
      simp only [Host.throws, hpc, Option.some.injEq] at hst
      exact hretries stamp attempt (by rw [hpc]; rfl) hst
    | _ =>
      simp only [Host.throws, hpc] at hst
      cases hst
      exact hl.fails hp hpc

theorem Leased.publishes (hl : Leased h l w) (hp : p ∈ w.live) (hfree : w.lock = none) : Leased h (l ++ []) (Host.withLockGuard { w with lock := some tmp } p .confirm) := by
  have hsub : ∀ o t, Held h (l ++ []) (Host.withLockGuard { w with lock := some tmp } p .confirm) o t → Held h l w o t :=
    fun o t => held_sub (u := Host.withLockGuard { w with lock := some tmp } p .confirm) hp rfl rfl (fun t ht => by cases ht)
      (fun x hx => by cases hx)
  refine ⟨fun o t ht => ?_, fun q hq s tok x hx => ?_, ?_, ?_⟩
  · have hold := hsub o t ht
    exact ⟨(hl.held o t hold).1, .inl (hl.expired_of_free hfree hold)⟩
  · have hx' : (if q = p then Pc.entering .confirm w.tokens .drafting else w.pc q) = .inside s tok x := by
      rw [← goto_pc]
      exact hx
    split at hx'
    · cases hx'
    · have hk := hl.knows q hq s tok x hx'
      have hnone : ∀ P : LockFile → Prop, ¬ ∃ f, w.lock = some f ∧ P f := by
        rintro P ⟨f, hf, -⟩
        rw [hfree] at hf
        cases hf
      cases x with
      | reading mtimeMs =>
        cases mtimeMs with
        | none => trivial
        | some m => exact absurd hk (hnone _)
      | judging m => exact absurd hk (hnone _)
      | copying m now => exact absurd hk.1 (hnone _)
      | replacing m now tmp attempt => exact absurd hk.1.1 (hnone _)
      | linking tmp => exact hk
      | writing i => exact absurd hk.1 (hnone _)
      | timing => exact absurd hk (hnone _)
      | touching now => exact absurd hk.1 (hnone _)
      | removing => exact absurd hk (hnone _)
      | _ => trivial
  · rw [List.append_nil]
    exact hl.replaced
  · rw [List.append_nil]
    exact hl.removed

theorem perform_leased (hl : Leased h l w) (hg : Guarded h w) (hp : p ∈ w.live) (hst : h.perform w p = some (u, k)) :
    Leased h (l ++ k) u := by
  unfold Host.perform at hst
  split at hst
  · cases hst
  · rename_i free hpc
    cases hst
    exact (outside_publishes free).leased hl hp
  · rename_i free tmp hpc
    split at hst
    · rename_i hfree
      cases hst
      exact hl.publishes hp hfree
    · split at hst <;> cases hst
      · exact (outside_refused _).leased hl hp
      · exact (outside_draws _).leased hl hp
  · rename_i s t e hpc
    exact (enter_outside hst).leased hl hp
  · rename_i s t x hpc
    exact work_leased hl hg hp hpc hst

theorem Leased.world (hl : Leased h l w) (hlive : ∀ q ∈ u.live, w.pc q ≠ .idle → q ∈ w.live) (hpc : u.pc = w.pc)
    (hlock : u.lock = w.lock) (hclock : w.clock ≤ u.clock) : Leased h (l ++ []) u := by
  have hsub : ∀ o t, Held h (l ++ []) u o t → Held h l w o t := by
    rintro o t (hgr | ⟨q, hq, hst, howner⟩)
    · rw [List.append_nil] at hgr
      exact .inl hgr
    · rw [hpc] at hst
      refine .inr ⟨q, hlive q hq (fun hidle => ?_), hst, howner⟩
      rw [hidle] at hst
      cases hst
  refine ⟨fun o t ht => ?_, fun q hq s tok x hx => ?_, ?_, ?_⟩
  · obtain ⟨hle, hstate⟩ := hl.held o t (hsub o t ht)
    rw [hlock]
    refine ⟨hle.trans hclock, hstate.imp (fun hexpired => ?_) id⟩
    exact Nat.le_trans hexpired hclock
  · rw [hpc] at hx
    have hq' : q ∈ w.live := hlive q hq (fun hidle => by rw [hidle] at hx; cases hx)
    exact Work.knows_mono (hl.knows q hq' s tok x hx) hlock hclock hsub
  · rw [List.append_nil]
    exact hl.replaced
  · rw [List.append_nil]
    exact hl.removed

end Steps

/-- **One step keeps what holds of the lock.** -/
theorem step_leased {e : Event} (hl : Leased h l w) (hg : Guarded h w)
    (hst : h.step w e = some (u, k)) : Leased h (l ++ k) u := by
  cases e with
  | spawn p =>
    obtain ⟨hfresh, hst⟩ := Option.ite_none_right_eq_some.1 hst
    cases hst
    refine hl.world (fun q hq hne => ?_) rfl rfl (Nat.le_refl _)
    rcases List.mem_cons.1 hq with rfl | hold
    · exact absurd (hg.unstarted q hfresh.1 hfresh.2.1) hne
    · exact hold
  | die p =>
    rw [Host.step] at hst
    split at hst
    · cases hst
      exact hl.world (fun q hq _ => (List.mem_filter.1 hq).1) rfl rfl (Nat.le_refl _)
    · cases hst
  | acquireLock p =>
    obtain ⟨hcall, hst⟩ := Option.ite_none_right_eq_some.1 hst
    cases hst
    have hcalled : Outside w (w.goto p (.publishing false)) p [] := outside_goto rfl rfl
    exact hcalled.leased hl hcall.1
  | acquireFreeLock p =>
    obtain ⟨hcall, hst⟩ := Option.ite_none_right_eq_some.1 hst
    cases hst
    have hcalled : Outside w (w.goto p (.publishing true)) p [] := outside_goto rfl rfl
    exact hcalled.leased hl hcall.1
  | refreshLock p =>
    obtain ⟨hcall, hst⟩ := Option.ite_none_right_eq_some.1 hst
    cases hst
    exact (outside_draws .refresh).leased hl hcall.1
  | releaseLock p =>
    obtain ⟨hcall, hst⟩ := Option.ite_none_right_eq_some.1 hst
    cases hst
    exact (outside_draws .release).leased hl hcall.1
  | perform p =>
    obtain ⟨hp, hst⟩ := Option.ite_none_right_eq_some.1 hst
    exact perform_leased hl hg hp hst
  | throws p code =>
    obtain ⟨hp, hst⟩ := Option.ite_none_right_eq_some.1 hst
    exact throws_leased hl hp hst
  | probes p found =>
    obtain ⟨hp, hst⟩ := Option.ite_none_right_eq_some.1 hst
    exact (probes_outside hst).leased hl hp
  | starts p start =>
    obtain ⟨hp, hst⟩ := Option.ite_none_right_eq_some.1 hst
    exact (starts_outside hst).leased hl hp
  | givesUp p =>
    obtain ⟨hp, hst⟩ := Option.ite_none_right_eq_some.1 hst
    exact (givesUp_outside hst).leased hl hp
  | tick ms =>
    cases hst
    have hle : w.clock ≤ w.clock + ms := Nat.le_add_right _ _
    exact hl.world (u := { w with clock := w.clock + ms }) (fun q hq _ => hq) rfl rfl hle

theorem Begun.leased (hw : Begun w) : Leased h [] w := by
  have hnone : ∀ q, q ∉ w.live := by
    intro q hq
    rw [hw.live] at hq
    cases hq
  refine ⟨?_, fun q hq => absurd hq (hnone q), fun o lock now hmem => (by cases hmem), fun o lock hmem => (by cases hmem)⟩
  rintro o t (⟨x, -, hstanding⟩ | ⟨q, hq, -⟩)
  · exact absurd hstanding Sys.not_standing_nil
  · exact absurd hq (hnone q)

/-- **Both invariants hold in every run.** -/
theorem run_leased (hw : Begun w) (hrun : Run h.step w l u) : Guarded h u ∧ Leased h l u := by
  refine RunOn.hist (fun l u => Guarded h u ∧ Leased h l u) ⟨hw.guarded, hw.leased⟩ ?_ hrun
  rintro l w e u k ⟨hg, hl⟩ - hst
  exact ⟨step_guarded hg hst, step_leased hl hg hst⟩

/-- **The writer lock admits one owner** among unexpired grants; a takeover replaces a stale file, and a release removes its
own. -/
theorem writer_lock_admits_one_owner (h : Host) {w u : World} {l : List Obs} (hw : Begun w) (hrun : Run h.step w l u) :
    (∀ o o' t t', Granted l o t → Granted l o' t' → ¬ u.expired t → ¬ u.expired t' → o = o') ∧
    (∀ o lock now, Obs.replaced o lock now ∈ l → ∃ f, lock = some f ∧ f.mtimeMs + LOCK_STALE_MS ≤ now) ∧
    (∀ o lock, Obs.removed o lock ∈ l → ∃ f, lock = some f ∧ f.text = o) := by
  obtain ⟨-, hl⟩ := run_leased hw hrun
  refine ⟨fun o o' t t' ho ho' ht ht' => ?_, hl.replaced, hl.removed⟩
  obtain ⟨-, hexpired | ⟨f, hf, htext, -⟩⟩ := hl.held o t (.inl ho)
  · exact absurd hexpired ht
  · obtain ⟨-, hexpired | ⟨f', hf', htext', -⟩⟩ := hl.held o' t' (.inl ho')
    · exact absurd hexpired ht'
    · rw [hf, Option.some.injEq] at hf'
      rw [← htext, ← htext', hf']

def twoRunners : Host := ⟨fun p => p + 1, fun _ => none, fun p => if p = 1 then "first" else "second", 1⟩

def fresh : World := ⟨none, none, 0, 0, 0, [], [], fun _ => .idle⟩

theorem fresh_begun : Begun fresh := ⟨rfl, fun _ => rfl, fun _ _ hguard => by cases hguard⟩

/-- The first runner stalls between touch and removal of the guard; the second takes the lock over. -/
def stalled : List Event :=
  [.spawn 1, .spawn 2, .acquireLock 1] ++ List.replicate 8 (.perform 1) ++ [.tick 61000, .perform 1, .acquireLock 2]
    ++ List.replicate 13 (.perform 2)

theorem stalled_run : ∃ u, Run twoRunners.step fresh
    [.acquired "first" 0 61000, .replaced "second" (some ⟨0, "first", 0⟩) 61000, .acquired "second" 61000 61000] u ∧ u.clock = 61000 := by
  have hreplay : (Sys.replay twoRunners.step fresh stalled).map (fun r => (r.2, r.1.clock)) =
      some ([.acquired "first" 0 61000, .replaced "second" (some ⟨0, "first", 0⟩) 61000, .acquired "second" 61000 61000], 61000) := by
    decide +kernel
  obtain ⟨⟨u, l⟩, hr, hsame⟩ := Option.map_eq_some_iff.1 hreplay
  obtain ⟨rfl, hclock⟩ := Prod.mk.inj hsame
  exact ⟨u, Sys.replay_run stalled fresh u _ hr, hclock⟩

theorem writer_lock_admits_one_owner_stalled : ∃ u l, Run twoRunners.step fresh l u ∧
    l = [.acquired "first" 0 61000, .replaced "second" (some ⟨0, "first", 0⟩) 61000, .acquired "second" 61000 61000] ∧
    ∀ o o' t t', Granted l o t → Granted l o' t' → ¬ u.expired t → ¬ u.expired t' → o = o' := by
  obtain ⟨u, hrun, -⟩ := stalled_run
  exact ⟨u, _, hrun, rfl, (writer_lock_admits_one_owner twoRunners fresh_begun hrun).1⟩

def Obs.answered : Obs → Option (String × Nat)
  | .acquired o _ r | .refreshed o _ r => some (o, r)
  | _ => none

/-- **Counted from the return two owners hold the lock**: an acquire may return when its lock is stale. -/
theorem stalled_acquire_returns : ¬ ∀ (h : Host) (w u : World) (l : List Obs) (o o' : String) (r r' : Nat), Begun w →
    Run h.step w l u → (∃ x : Obs, x.answered = some (o, r) ∧ Standing (Obs.ends o) x l) →
      (∃ x : Obs, x.answered = some (o', r') ∧ Standing (Obs.ends o') x l) → ¬ u.expired r → ¬ u.expired r' → o = o' := by
  intro hall
  obtain ⟨u, hrun, hclock⟩ := stalled_run
  have hfirst : Standing (Obs.ends "first") (.acquired "first" 0 61000)
      [.acquired "first" 0 61000, .replaced "second" (some ⟨0, "first", 0⟩) 61000, .acquired "second" 61000 61000] :=
    ⟨[], _, rfl, by decide⟩
  have hsecond : Standing (Obs.ends "second") (.acquired "second" 61000 61000)
      [.acquired "first" 0 61000, .replaced "second" (some ⟨0, "first", 0⟩) 61000, .acquired "second" 61000 61000] :=
    ⟨[.acquired "first" 0 61000, .replaced "second" (some ⟨0, "first", 0⟩) 61000], [], rfl, by decide⟩
  have hfresh : ¬ u.expired 61000 := by
    unfold World.expired
    rw [hclock]
    decide
  have hsame := hall twoRunners fresh u _ "first" "second" 61000 61000 fresh_begun hrun ⟨_, rfl, hfirst⟩ ⟨_, rfl, hsecond⟩ hfresh hfresh
  exact absurd hsame (by decide)

end Writer
end Wollipog

import Wollipog.Writer.Lock
/-!
# Guard — the lock guard has one live holder

At most one live process relies on the guard file (`Guarded.alone`): a created guard needs an absent one, and a broken
one names a token that no live process carries any more (`Gone`).
-/
namespace Wollipog
namespace Writer

variable {h : Host}

/-! ## What a process relies on -/

def Pc.token : Pc → Option Nat
  | .entering _ t _ | .inside _ t _ => some t
  | _ => none

def Pc.isInside : Pc → Bool
  | .inside _ _ _ => true
  | _ => false

def Pc.created : Pc → Option Nat
  | .entering _ _ (.writing i) => some i
  | _ => none

def Pc.attached : Pc → Bool
  | .inside _ _ _ | .entering _ _ (.writing _) | .entering _ _ (.breaking _) => true
  | _ => false

/-- A record that was installed: a live process that carries its token wrote it and is inside. -/
structure Known (h : Host) (w : World) (r : LockGuardRecord) : Prop where
  drawn : r.token < w.tokens
  holder : ∀ q ∈ w.live, (w.pc q).token = some r.token → r = h.record q r.token ∧ (w.pc q).isInside = true

structure Gone (w : World) (r : LockGuardRecord) : Prop where
  drawn : r.token < w.tokens
  nobody : ∀ q ∈ w.live, (w.pc q).token ≠ some r.token

def Entry.knows (h : Host) (w : World) (p token : Nat) : Entry → Prop
  | .linking tmp => tmp.record = some (h.record p token)
  | .writing i => ∃ ms, w.guard = some ⟨i, none, ms⟩
  | .dating raw => ∀ r, raw = some r → Known h w r
  | .probing r _ | .starting r => Known h w r ∧ p = h.breaker
  | .rereading r => Gone w r ∧ p = h.breaker
  | .breaking r => Gone w r ∧ p = h.breaker ∧ w.guard.bind GuardFile.record = some r
  | _ => True

def Knows (h : Host) (w : World) (p : Nat) : Pc → Prop
  | .entering _ t e => e.knows h w p t
  | .inside _ t _ => w.guard.bind GuardFile.record = some (h.record p t)
  | _ => True

structure Guarded (h : Host) (w : World) : Prop where
  pids : ∀ p ∈ w.live, ∀ q ∈ w.live, h.pid p = h.pid q → p = q
  drawn : ∀ p ∈ w.live, ∀ t, (w.pc p).token = some t → t < w.tokens
  carried : ∀ p ∈ w.live, ∀ q ∈ w.live, ∀ t, (w.pc p).token = some t → (w.pc q).token = some t → p = q
  opened : ∀ p ∈ w.live, ∀ i, (w.pc p).created = some i → i < w.inodes
  created : ∀ p ∈ w.live, ∀ q ∈ w.live, ∀ i, (w.pc p).created = some i → (w.pc q).created = some i → p = q
  installed : ∀ r, w.guard.bind GuardFile.record = some r → Known h w r
  unstarted : ∀ p, p ∉ w.live → p ∉ w.dead → w.pc p = .idle
  knows : ∀ p ∈ w.live, Knows h w p (w.pc p)

theorem goto_pc (w : World) (p q : Nat) (pc : Pc) : (w.goto p pc).pc q = if q = p then pc else w.pc q := by
  simp only [World.goto, Function.update_apply]

variable {pc : Pc} {p q : Nat} {u w : World} {r : LockGuardRecord}

theorem Guarded.relies (hg : Guarded h w) (hp : p ∈ w.live) (hpa : (w.pc p).attached = true) :
    (∃ t, w.guard.bind GuardFile.record = some (h.record p t) ∧ (w.pc p).token = some t) ∨
      (∃ i ms, w.guard = some ⟨i, none, ms⟩ ∧ (w.pc p).created = some i) ∨
      (p = h.breaker ∧ ∃ r, Gone w r ∧ w.guard.bind GuardFile.record = some r) := by
  have hkp := hg.knows p hp
  cases hpc : w.pc p with
  | inside s t k =>
    rw [hpc] at hkp
    exact .inl ⟨t, hkp, rfl⟩
  | entering s t e =>
    rw [hpc] at hkp hpa
    cases e with
    | writing i =>
      obtain ⟨ms, hguard⟩ := hkp
      exact .inr (.inl ⟨i, ms, hguard, rfl⟩)
    | breaking r => exact .inr (.inr ⟨hkp.2.1, r, hkp.1, hkp.2.2⟩)
    | _ => cases hpa
  | _ =>
    rw [hpc] at hpa
    cases hpa

/-- **One live process at most relies on the guard file.** -/
theorem Guarded.alone (hg : Guarded h w) (hp : p ∈ w.live) (hq : q ∈ w.live)
    (hpa : (w.pc p).attached = true) (hqa : (w.pc q).attached = true) : p = q := by
  rcases hg.relies hp hpa with ⟨t, hrecord, htoken⟩ | ⟨i, ms, hguard, hmade⟩ | ⟨hbreaker, r, hgone, hbroken⟩
  · rcases hg.relies hq hqa with ⟨t', hrecord', htoken'⟩ | ⟨i', ms', hguard', -⟩ | ⟨-, r', hgone', hbroken'⟩
    · rw [hrecord, Option.some.injEq] at hrecord'
      have ht : t = t' := congrArg LockGuardRecord.token hrecord'
      exact hg.carried p hp q hq t htoken (ht ▸ htoken')
    · rw [hguard'] at hrecord
      cases hrecord
    · rw [hrecord, Option.some.injEq] at hbroken'
      exact absurd (by rw [htoken, ← hbroken']; rfl) (hgone'.nobody p hp)
  · rcases hg.relies hq hqa with ⟨t', hrecord', -⟩ | ⟨i', ms', hguard', hmade'⟩ | ⟨-, r', -, hbroken'⟩
    · rw [hguard] at hrecord'
      cases hrecord'
    · rw [hguard, Option.some.injEq, GuardFile.mk.injEq] at hguard'
      exact hg.created p hp q hq i hmade (hguard'.1 ▸ hmade')
    · rw [hguard] at hbroken'
      cases hbroken'
  · rcases hg.relies hq hqa with ⟨t', hrecord', htoken'⟩ | ⟨i', ms', hguard', -⟩ | ⟨hbreaker', -⟩
    · rw [hrecord', Option.some.injEq] at hbroken
      exact absurd (by rw [htoken', ← hbroken]; rfl) (hgone.nobody q hq)
    · rw [hguard'] at hbroken
      cases hbroken
    · exact hbreaker.trans hbreaker'.symm

theorem Guarded.nobody (hg : Guarded h w) (hfree : w.guard = none) (hq : q ∈ w.live) : (w.pc q).attached = false := by
  refine Bool.eq_false_iff.2 fun hqa => ?_
  rcases hg.relies hq hqa with ⟨t, hrecord, -⟩ | ⟨i, ms, hguard, -⟩ | ⟨-, r, -, hrecord⟩
  · rw [hfree] at hrecord
    cases hrecord
  · rw [hfree] at hguard
    cases hguard
  · rw [hfree] at hrecord
    cases hrecord

/-- Tokens are drawn and dropped, and a process inside stays inside while it carries its token. -/
structure Evolves (w u : World) : Prop where
  tokens : w.tokens ≤ u.tokens
  carried : ∀ q ∈ u.live, ∀ t, (u.pc q).token = some t →
    w.tokens ≤ t ∨ (q ∈ w.live ∧ (w.pc q).token = some t ∧ ((w.pc q).isInside = true → (u.pc q).isInside = true))

theorem Known.mono (hk : Known h w r) (hu : Evolves w u) : Known h u r := by
  refine ⟨hk.drawn.trans_le hu.tokens, fun q hq ht => ?_⟩
  rcases hu.carried q hq r.token ht with hnew | ⟨hlive, hold, hin⟩
  · exact absurd hk.drawn (Nat.not_lt.2 hnew)
  · obtain ⟨hr, hinside⟩ := hk.holder q hlive hold
    exact ⟨hr, hin hinside⟩

theorem Gone.mono (hk : Gone w r) (hu : Evolves w u) : Gone u r := by
  refine ⟨hk.drawn.trans_le hu.tokens, fun q hq ht => ?_⟩
  rcases hu.carried q hq r.token ht with hnew | ⟨hlive, hold, -⟩
  · exact absurd hk.drawn (Nat.not_lt.2 hnew)
  · exact hk.nobody q hlive hold

theorem Entry.knows_mono {t : Nat} {s : Section} {e : Entry} (hk : e.knows h w p t) (hu : Evolves w u)
    (hguard : (Pc.entering s t e).attached = true → u.guard = w.guard) : e.knows h u p t := by
  cases e with
  | writing i =>
    have hsame : u.guard = w.guard := hguard rfl
    unfold Entry.knows at *
    rwa [hsame]
  | dating raw => exact fun r hr => (hk r hr).mono hu
  | probing r ageMs => exact ⟨hk.1.mono hu, hk.2⟩
  | starting r => exact ⟨hk.1.mono hu, hk.2⟩
  | rereading r => exact ⟨hk.1.mono hu, hk.2⟩
  | breaking r =>
    have hsame : u.guard = w.guard := hguard rfl
    refine ⟨hk.1.mono hu, hk.2.1, ?_⟩
    rw [hsame]
    exact hk.2.2
  | _ => exact hk

theorem Knows.mono (hk : Knows h w p pc) (hu : Evolves w u)
    (hguard : pc.attached = true → u.guard = w.guard) : Knows h u p pc := by
  cases pc with
  | entering s t e => exact Entry.knows_mono (s := s) hk hu hguard
  | inside s t k =>
    have hsame : u.guard = w.guard := hguard rfl
    unfold Knows at *
    rwa [hsame]
  | _ => exact hk

/-- A step of one process: it goes to `pc`, and may draw a token or take an inode. -/
structure Follows (w u : World) (p : Nat) (pc : Pc) : Prop where
  tokens : w.tokens ≤ u.tokens
  inodes : w.inodes ≤ u.inodes
  live : u.live = w.live
  dead : u.dead = w.dead
  goes : u.pc = Function.update w.pc p pc
  token : ∀ t, pc.token = some t → (w.pc p).token = some t ∨ (w.tokens ≤ t ∧ t < u.tokens)
  inside : pc.token = none ∨ ((w.pc p).isInside = true → pc.isInside = true)
  created : ∀ i, pc.created = some i → (w.pc p).created = some i ∨ (w.inodes ≤ i ∧ i < u.inodes)

namespace Follows

variable {w u : World} {p : Nat} {pc : Pc}

theorem self (hf : Follows w u p pc) : u.pc p = pc := by
  rw [hf.goes, Function.update_self]

theorem other (hf : Follows w u p pc) {q : Nat} (hq : q ≠ p) : u.pc q = w.pc q := by
  rw [hf.goes, Function.update_of_ne hq]

theorem evolves (hf : Follows w u p pc) : Evolves w u := by
  refine ⟨hf.tokens, fun q hq t ht => ?_⟩
  rw [hf.live] at hq
  by_cases hqp : q = p
  · subst hqp
    rw [hf.self] at ht ⊢
    rcases hf.token t ht with hold | ⟨hnew, -⟩
    · refine .inr ⟨hq, hold, fun hin => ?_⟩
      rcases hf.inside with hnone | hkeeps
      · rw [hnone] at ht
        cases ht
      · exact hkeeps hin
    · exact .inl hnew
  · rw [hf.other hqp] at ht ⊢
    exact .inr ⟨hq, ht, id⟩

theorem carries (hf : Follows w u p pc) {q t : Nat} (ht : (u.pc q).token = some t) :
    (w.pc q).token = some t ∨ (q = p ∧ w.tokens ≤ t ∧ t < u.tokens) := by
  by_cases hqp : q = p
  · subst hqp
    rw [hf.self] at ht
    rcases hf.token t ht with hold | hnew
    · exact .inl hold
    · exact .inr ⟨rfl, hnew⟩
  · rw [hf.other hqp] at ht
    exact .inl ht

theorem creates (hf : Follows w u p pc) {q i : Nat} (hi : (u.pc q).created = some i) :
    (w.pc q).created = some i ∨ (q = p ∧ w.inodes ≤ i ∧ i < u.inodes) := by
  by_cases hqp : q = p
  · subst hqp
    rw [hf.self] at hi
    rcases hf.created i hi with hold | hnew
    · exact .inl hold
    · exact .inr ⟨rfl, hnew⟩
  · rw [hf.other hqp] at hi
    exact .inl hi

end Follows

theorem Guarded.move (hg : Guarded h w) (hf : Follows w u p pc) (hp : p ∈ w.live)
    (hguard : u.guard = w.guard ∨ ∀ q ∈ w.live, q ≠ p → (w.pc q).attached = false)
    (hinstalled : u.guard = w.guard ∨ ∀ r, u.guard.bind GuardFile.record = some r → Known h u r)
    (hknows : Knows h u p pc) : Guarded h u := by
  have hu : Evolves w u := hf.evolves
  refine ⟨?_, ?_, ?_, ?_, ?_, ?_, ?_, ?_⟩
  · rw [hf.live]
    exact hg.pids
  · rw [hf.live]
    intro q hq t ht
    rcases hf.carries ht with hold | ⟨-, -, hnew⟩
    · exact (hg.drawn q hq t hold).trans_le hf.tokens
    · exact hnew
  · rw [hf.live]
    intro q hq q' hq' t ht ht'
    rcases hf.carries ht with hold | ⟨hqp, hnew, -⟩
    · rcases hf.carries ht' with hold' | ⟨-, hnew', -⟩
      · exact hg.carried q hq q' hq' t hold hold'
      · exact absurd (hg.drawn q hq t hold) (Nat.not_lt.2 hnew')
    · rcases hf.carries ht' with hold' | ⟨hqp', -, -⟩
      · exact absurd (hg.drawn q' hq' t hold') (Nat.not_lt.2 hnew)
      · rw [hqp, hqp']
  · rw [hf.live]
    intro q hq i hi
    rcases hf.creates hi with hold | ⟨-, -, hnew⟩
    · exact (hg.opened q hq i hold).trans_le hf.inodes
    · exact hnew
  · rw [hf.live]
    intro q hq q' hq' i hi hi'
    rcases hf.creates hi with hold | ⟨hqp, hnew, -⟩
    · rcases hf.creates hi' with hold' | ⟨-, hnew', -⟩
      · exact hg.created q hq q' hq' i hold hold'
      · exact absurd (hg.opened q hq i hold) (Nat.not_lt.2 hnew')
    · rcases hf.creates hi' with hold' | ⟨hqp', -, -⟩
      · exact absurd (hg.opened q' hq' i hold') (Nat.not_lt.2 hnew)
      · rw [hqp, hqp']
  · rcases hinstalled with hsame | hnew
    · rw [hsame]
      exact fun r hr => (hg.installed r hr).mono hu
    · exact hnew
  · rw [hf.live, hf.dead]
    intro q hq hq'
    have hqp : q ≠ p := by
      rintro rfl
      exact hq hp
    rw [hf.other hqp]
    exact hg.unstarted q hq hq'
  · rw [hf.live]
    intro q hq
    by_cases hqp : q = p
    · subst hqp
      rw [hf.self]
      exact hknows
    · rw [hf.other hqp]
      refine (hg.knows q hq).mono hu (fun hattached => ?_)
      rcases hguard with hsame | hothers
      · exact hsame
      · rw [hothers q hq hqp] at hattached
        cases hattached

theorem Guarded.keep (hg : Guarded h w) (hf : Follows w u p pc) (hp : p ∈ w.live)
    (hguard : u.guard = w.guard) (hknows : Knows h u p pc) : Guarded h u :=
  hg.move hf hp (.inl hguard) (.inl hguard) hknows

/-! ## Steps -/

section Steps

variable {w u : World} {p : Nat} {s : Section} {t : Nat} {o : List Obs}

theorem follows_on {pc : Pc} (hpc : u.pc = Function.update w.pc p pc) (htokens : u.tokens = w.tokens) (hinodes : w.inodes ≤ u.inodes)
    (hlive : u.live = w.live) (hdead : u.dead = w.dead) (htoken : pc.token = (w.pc p).token)
    (hinside : (w.pc p).isInside = true → pc.isInside = true)
    (hcreated : ∀ i, pc.created = some i → (w.pc p).created = some i ∨ (w.inodes ≤ i ∧ i < u.inodes)) : Follows w u p pc :=
  ⟨htokens.ge, hinodes, hlive, hdead, hpc, fun _ ht => .inl (htoken ▸ ht), .inr hinside, hcreated⟩

theorem follows_idle (hpc : u.pc = Function.update w.pc p .idle) (htokens : u.tokens = w.tokens) (hinodes : u.inodes = w.inodes)
    (hlive : u.live = w.live) (hdead : u.dead = w.dead) : Follows w u p .idle :=
  ⟨htokens.ge, hinodes.ge, hlive, hdead, hpc, fun _ ht => (by cases ht), .inl rfl, fun _ hi => (by cases hi)⟩

variable {k : Work} {e : Entry} {start : Option String} {r : LockGuardRecord}

theorem Guarded.goes {e' : Entry} (hg : Guarded h w) (hp : p ∈ w.live) (hpc : w.pc p = .entering s t e)
    (he : (Pc.entering s t e').created = none) (hk : Evolves w (w.goto p (.entering s t e')) →
      e'.knows h (w.goto p (.entering s t e')) p t) : Guarded h (w.goto p (.entering s t e')) := by
  have hf : Follows w (w.goto p (.entering s t e')) p (.entering s t e') := by
    refine follows_on rfl rfl (Nat.le_refl _) rfl rfl ?_ ?_ ?_
    · rw [hpc]
      rfl
    · rw [hpc]
      intro hin
      cases hin
    · intro i hi
      rw [he] at hi
      cases hi
  exact hg.keep hf hp rfl (hk hf.evolves)

theorem Guarded.known_own (hg : Guarded h w) (hp : p ∈ w.live) (ht : (w.pc p).token = some t)
    (hf : Follows w u p (.inside s t k)) : Known h u (h.record p t) := by
  refine ⟨(hg.drawn p hp t ht).trans_le hf.tokens, fun q hq hqt => ?_⟩
  have hqt' : (u.pc q).token = some t := hqt
  rw [hf.live] at hq
  rcases hf.carries hqt' with hold | ⟨-, hnew, -⟩
  · have hqp : p = q := hg.carried p hp q hq t ht hold
    subst hqp
    rw [hf.self]
    exact ⟨rfl, rfl⟩
  · exact absurd (hg.drawn p hp t ht) (Nat.not_lt.2 hnew)

theorem Guarded.enters (hg : Guarded h w) (hp : p ∈ w.live) (hpc : w.pc p = .entering s t e)
    (hgoes : u.pc = Function.update w.pc p (.inside s t k)) (htokens : u.tokens = w.tokens) (hinodes : u.inodes = w.inodes)
    (hlive : u.live = w.live) (hdead : u.dead = w.dead) (hguard : u.guard.bind GuardFile.record = some (h.record p t))
    (hothers : ∀ q ∈ w.live, q ≠ p → (w.pc q).attached = false) : Guarded h u := by
  have htoken : (w.pc p).token = some t := by
    rw [hpc]
    rfl
  have hf : Follows w u p (.inside s t k) := by
    refine follows_on hgoes htokens hinodes.ge hlive hdead htoken.symm (fun _ => rfl) ?_
    intro i hi
    cases hi
  refine hg.move hf hp (.inr hothers) (.inr fun r hr => ?_) hguard
  rw [hguard, Option.some.injEq] at hr
  rw [← hr]
  exact hg.known_own hp htoken hf

theorem gone_of_pid (hr : Known h w r) (hpid : ∀ q ∈ w.live, h.pid q ≠ r.pid) : Gone w r := by
  refine ⟨hr.drawn, fun q hq ht => ?_⟩
  obtain ⟨heq, -⟩ := hr.holder q hq ht
  refine hpid q hq ?_
  rw [heq]
  rfl

theorem gone_of_self (hg : Guarded h w) (hp : p ∈ w.live) (hpc : w.pc p = .entering s t e)
    (hr : Known h w r) (hpid : r.pid = h.pid p) : Gone w r := by
  refine ⟨hr.drawn, fun q hq ht => ?_⟩
  obtain ⟨heq, hinside⟩ := hr.holder q hq ht
  have hsame : h.pid p = h.pid q := by
    rw [← hpid, heq]
    rfl
  have hpq : p = q := hg.pids p hp q hq hsame
  subst hpq
  rw [hpc] at hinside
  cases hinside

theorem gone_of_start (hr : Known h w r)
    (hlive : ¬ w.live.any (fun q => h.pid q == r.pid && (start != none && start != h.start q)) = true)
    (hstart : start ≠ none ∧ start ≠ r.start) : Gone w r := by
  refine ⟨hr.drawn, fun q hq ht => hlive ?_⟩
  obtain ⟨heq, -⟩ := hr.holder q hq ht
  have hpid : h.pid q = r.pid := by
    rw [heq]
    rfl
  have hown : start ≠ h.start q := by
    have hrs : r.start = h.start q := by
      rw [heq]
      rfl
    rw [← hrs]
    exact hstart.2
  refine List.any_eq_true.2 ⟨q, hq, ?_⟩
  simp [hpid, hown, hstart.1]

theorem enter_guarded (hg : Guarded h w) (hp : p ∈ w.live) (hpc : w.pc p = .entering s t e)
    (hst : h.enter w p s t e = some (u, o)) : Guarded h u := by
  have hk := hg.knows p hp
  rw [hpc] at hk
  have hattached : ∀ q ∈ w.live, q ≠ p → (w.pc p).attached = true → (w.pc q).attached = false := by
    intro q hq hne hpa
    rw [← Bool.not_eq_true]
    exact fun hqa => hne (hg.alone hq hp hqa hpa)
  cases e with
  | drafting =>
    cases hst
    refine hg.keep (follows_on rfl rfl (Nat.le_succ _) rfl rfl ?_ ?_ ?_) hp rfl rfl
    · rw [hpc]
      rfl
    · rw [hpc]
      intro hin
      cases hin
    · intro i hi
      cases hi
  | linking tmp =>
    dsimp only [Host.enter] at hst
    split at hst
    · rename_i hfree
      cases hst
      exact hg.enters hp hpc rfl rfl rfl rfl rfl hk (fun q hq _ => hg.nobody hfree hq)
    · cases hst
      exact hg.goes hp hpc rfl (fun _ => trivial)
  | opening =>
    dsimp only [Host.enter] at hst
    split at hst
    · rename_i hfree
      cases hst
      refine hg.move (follows_on rfl rfl (Nat.le_succ _) rfl rfl ?_ ?_ ?_) hp (.inr fun q hq _ => hg.nobody hfree hq) (.inr ?_)
        ⟨w.clock, rfl⟩
      · rw [hpc]
        rfl
      · rw [hpc]
        intro hin
        cases hin
      · intro i hi
        cases hi
        exact .inr ⟨Nat.le_refl _, Nat.lt_succ_self _⟩
      · intro r hr
        cases hr
    · cases hst
      exact hg.goes hp hpc rfl (fun _ => trivial)
  | writing i =>
    obtain ⟨ms, hguard⟩ := hk
    cases hst
    refine hg.enters hp hpc rfl rfl rfl rfl rfl ?_ (fun q hq hne => hattached q hq hne (by rw [hpc]; rfl))
    have hwritten : (w.guard.map (fun g => if g.inode = i then ⟨i, some (h.record p t), w.clock⟩ else g)).bind GuardFile.record
        = some (h.record p t) := by
      rw [hguard]
      simp
    exact hwritten
  | reading =>
    dsimp only [Host.enter] at hst
    split at hst
    · cases hst
      exact hg.goes hp hpc rfl (fun _ => trivial)
    · rename_i g hguard
      cases hst
      refine hg.goes hp hpc rfl (fun hu r hr => (hg.installed r ?_).mono hu)
      rw [hguard]
      exact hr
  | dating raw =>
    dsimp only [Host.enter] at hst
    split at hst
    · cases hst
      exact hg.goes hp hpc rfl (fun _ => trivial)
    · split at hst
      · cases hst
        exact hg.goes hp hpc rfl (fun _ => trivial)
      · rename_i holder
        have hknown : Known h w holder := hk holder rfl
        split at hst
        · rename_i hbreaker
          split at hst
          · rename_i hpid
            split at hst
            · cases hst
              exact hg.goes hp hpc rfl (fun _ => trivial)
            · cases hst
              exact hg.goes hp hpc rfl
                (fun hu => ⟨(gone_of_self hg hp hpc hknown hpid).mono hu, hbreaker.1⟩)
          · cases hst
            exact hg.goes hp hpc rfl (fun hu => ⟨hknown.mono hu, hbreaker.1⟩)
        · cases hst
          exact hg.goes hp hpc rfl (fun _ => trivial)
  | probing => cases hst
  | starting => cases hst
  | rereading r =>
    dsimp only [Host.enter] at hst
    split at hst
    · rename_i hsame
      cases hst
      exact hg.goes hp hpc rfl (fun hu => ⟨hk.1.mono hu, hk.2, hsame⟩)
    · cases hst
      exact hg.goes hp hpc rfl (fun _ => trivial)
  | breaking r =>
    dsimp only [Host.enter] at hst
    split at hst
    · cases hst
      exact hg.goes hp hpc rfl (fun _ => trivial)
    · cases hst
      refine hg.move (follows_on rfl rfl (Nat.le_refl _) rfl rfl ?_ ?_ ?_) hp
        (.inr fun q hq hne => hattached q hq hne (by rw [hpc]; rfl)) (.inr ?_) trivial
      · rw [hpc]
        rfl
      · rw [hpc]
        intro hin
        cases hin
      · intro i hi
        cases hi
      · intro r hr
        cases hr
  | waiting =>
    cases hst
    exact hg.goes hp hpc rfl (fun _ => trivial)

/-- A step inside the guard: it goes on there, or removes the guard or leaves it, and returns. -/
inductive Works (w u : World) (p : Nat) (s : Section) (t : Nat) : Prop
  | on (k : Work) (hgoes : u.pc = Function.update w.pc p (.inside s t k)) (hguard : u.guard = w.guard)
      (htokens : u.tokens = w.tokens) (hinodes : w.inodes ≤ u.inodes) (hlive : u.live = w.live) (hdead : u.dead = w.dead)
  | back (hgoes : u.pc = Function.update w.pc p .idle) (hguard : u.guard = w.guard ∨ u.guard = none)
      (htokens : u.tokens = w.tokens) (hinodes : u.inodes = w.inodes) (hlive : u.live = w.live) (hdead : u.dead = w.dead)

theorem Works.guarded (hw : Works w u p s t) (hg : Guarded h w) (hp : p ∈ w.live) (hpc : w.pc p = .inside s t k) :
    Guarded h u := by
  have hk := hg.knows p hp
  rw [hpc] at hk
  have hk' : w.guard.bind GuardFile.record = some (h.record p t) := hk
  cases hw with
  | on k' hgoes hguard htokens hinodes hlive hdead =>
    refine hg.keep (follows_on hgoes htokens hinodes hlive hdead ?_ (fun _ => rfl) ?_) hp hguard ?_
    · rw [hpc]
      rfl
    · intro i hi
      cases hi
    · have hsame : u.guard.bind GuardFile.record = some (h.record p t) := by rw [hguard]; exact hk'
      exact hsame
  | back hgoes hguard htokens hinodes hlive hdead =>
    refine hg.move (follows_idle hgoes htokens hinodes hlive hdead) hp (.inr fun q hq hne => ?_) ?_ trivial
    · rw [← Bool.not_eq_true]
      exact fun hqa => hne (hg.alone hq hp hqa (by rw [hpc]; rfl))
    · rcases hguard with hsame | hnone
      · exact .inl hsame
      · right
        intro r hr
        rw [hnone] at hr
        cases hr

theorem finishes_works (stamp : Option Nat) : Works w (Host.finishes w p s t stamp) p s t :=
  .on _ rfl rfl rfl (Nat.le_refl _) rfl rfl

theorem returns_works (stamp : Option Nat) : Works w (h.returns w p s stamp).1 p s t :=
  .back rfl (.inl rfl) rfl rfl rfl rfl

theorem work_works (hst : h.work w p s t k = some (u, o)) : Works w u p s t := by
  cases k with
  | stating =>
    dsimp only [Host.work] at hst
    split at hst
    · cases hst
      exact .on _ rfl rfl rfl (Nat.le_refl _) rfl rfl
    · split at hst
      · cases hst
        exact finishes_works none
      · cases hst
        exact .on _ rfl rfl rfl (Nat.le_refl _) rfl rfl
  | reading mtimeMs =>
    dsimp only [Host.work] at hst
    split at hst
    · split at hst
      · cases hst
        exact .on _ rfl rfl rfl (Nat.le_refl _) rfl rfl
      · cases hst
        exact finishes_works none
    · split at hst
      · split at hst <;> (cases hst; exact .on _ rfl rfl rfl (Nat.le_refl _) rfl rfl)
      · split at hst
        · cases hst
          exact .on _ rfl rfl rfl (Nat.le_refl _) rfl rfl
        · cases hst
          exact finishes_works none
  | judging mtimeMs =>
    dsimp only [Host.work] at hst
    split at hst
    · cases hst
      exact finishes_works none
    · cases hst
      exact .on _ rfl rfl rfl (Nat.le_refl _) rfl rfl
  | copying mtimeMs now =>
    cases hst
    exact .on _ rfl rfl rfl (Nat.le_succ _) rfl rfl
  | replacing mtimeMs now tmp attempt =>
    cases hst
    exact .on _ rfl rfl rfl (Nat.le_refl _) rfl rfl
  | drafting =>
    cases hst
    exact .on _ rfl rfl rfl (Nat.le_succ _) rfl rfl
  | linking tmp =>
    dsimp only [Host.work] at hst
    split at hst
    · cases hst
      exact .on _ rfl rfl rfl (Nat.le_refl _) rfl rfl
    · cases hst
      exact finishes_works none
  | opening =>
    dsimp only [Host.work] at hst
    split at hst
    · cases hst
      exact .on _ rfl rfl rfl (Nat.le_succ _) rfl rfl
    · cases hst
      exact finishes_works none
  | writing inode | timing =>
    cases hst
    exact .on _ rfl rfl rfl (Nat.le_refl _) rfl rfl
  | touching now =>
    dsimp only [Host.work] at hst
    split at hst
    · cases hst
      exact finishes_works none
    · cases hst
      exact .on _ rfl rfl rfl (Nat.le_refl _) rfl rfl
  | removing =>
    cases hst
    exact .on _ rfl rfl rfl (Nat.le_refl _) rfl rfl
  | checking stamp attempt =>
    dsimp only [Host.work] at hst
    split at hst
    · cases hst
      exact .on _ rfl rfl rfl (Nat.le_refl _) rfl rfl
    · cases hst
      exact returns_works (h := h) stamp
  | leaving stamp attempt =>
    cases hst
    exact .back rfl (.inr rfl) rfl rfl rfl rfl

theorem Guarded.leaves (hg : Guarded h w) (hp : p ∈ w.live) : Guarded h (w.goto p .idle) :=
  hg.keep (follows_idle rfl rfl rfl rfl rfl) hp rfl trivial

theorem Guarded.draws (hg : Guarded h w) (hp : p ∈ w.live) (hpc : (w.pc p).token = none) (s : Section) :
    Guarded h (Host.withLockGuard w p s) := by
  have hf : Follows w (Host.withLockGuard w p s) p (.entering s w.tokens .drafting) := by
    refine ⟨Nat.le_succ _, Nat.le_refl _, rfl, rfl, rfl, fun t ht => ?_, .inr fun hin => ?_, fun i hi => by cases hi⟩
    · cases ht
      exact .inr ⟨Nat.le_refl _, Nat.lt_succ_self _⟩
    · cases hq : w.pc p <;> rw [hq] at hin hpc <;> cases hin
      cases hpc
  exact hg.keep hf hp rfl trivial

theorem Guarded.outside (hg : Guarded h w) (lock : Option LockFile) (clock : Nat) : Guarded h { w with lock := lock, clock := clock } := by
  have hu : Evolves w { w with lock := lock, clock := clock } := ⟨Nat.le_refl _, fun q hq t ht => .inr ⟨hq, ht, id⟩⟩
  exact ⟨hg.pids, hg.drawn, hg.carried, hg.opened, hg.created, fun r hr => (hg.installed r hr).mono hu, hg.unstarted,
    fun q hq => (hg.knows q hq).mono hu (fun _ => rfl)⟩

theorem perform_guarded (hg : Guarded h w) (hp : p ∈ w.live) (hst : h.perform w p = some (u, o)) : Guarded h u := by
  unfold Host.perform at hst
  split at hst
  · cases hst
  · rename_i free hpc
    cases hst
    have hf : Follows w ({ w with inodes := w.inodes + 1 }.goto p (.linking free ⟨w.inodes, h.owner p, w.clock⟩)) p
        (.linking free ⟨w.inodes, h.owner p, w.clock⟩) := by
      refine follows_on rfl rfl (Nat.le_succ _) rfl rfl ?_ ?_ (fun i hi => by cases hi)
      · rw [hpc]
        rfl
      · rw [hpc]
        intro hin
        cases hin
    exact hg.keep hf hp rfl trivial
  · rename_i free tmp hpc
    have htoken : (w.pc p).token = none := by
      rw [hpc]
      rfl
    split at hst
    · cases hst
      exact (hg.outside (some tmp) w.clock).draws hp htoken .confirm
    · split at hst
      · cases hst
        exact hg.leaves hp
      · cases hst
        exact hg.draws hp htoken .take
  · rename_i s t e hpc
    exact enter_guarded hg hp hpc hst
  · rename_i s t k hpc
    exact (work_works hst).guarded hg hp hpc

theorem throws_guarded {code : Errno} (hg : Guarded h w) (hp : p ∈ w.live) (hst : h.throws w p code = some (u, o)) :
    Guarded h u := by
  have hdraw : ∀ s, (w.pc p).token = none → Guarded h (Host.withLockGuard w p s) := fun s htoken => hg.draws hp htoken s
  cases hpc : w.pc p with
  | idle =>
    simp only [Host.throws, hpc] at hst
    cases hst
  | publishing free | linking free tmp =>
    simp only [Host.throws, hpc] at hst
    split at hst
    · cases hst
      exact hdraw _ (by rw [hpc]; rfl)
    · cases hst
      exact hg.leaves hp
  | entering s t e =>
    cases e with
    | drafting | linking tmp =>
      simp only [Host.throws, hpc] at hst
      split at hst
      · cases hst
        exact hg.goes hp hpc rfl (fun _ => trivial)
      · cases hst
        exact hg.leaves hp
    | opening | writing i =>
      simp only [Host.throws, hpc] at hst
      cases hst
      exact hg.leaves hp
    | probing holder ageMs | starting holder | waiting =>
      simp only [Host.throws, hpc] at hst
      cases hst
    | _ =>
      simp only [Host.throws, hpc] at hst
      cases hst
      exact hg.goes hp hpc rfl (fun _ => trivial)
  | inside s t k =>
    refine Works.guarded (s := s) (t := t) ?_ hg hp hpc
    cases k with
    | drafting | linking tmp | replacing mtimeMs now tmp attempt =>
      simp only [Host.throws, hpc] at hst
      split at hst
      · cases hst
        exact .on _ rfl rfl rfl (Nat.le_refl _) rfl rfl
      · cases hst
        exact finishes_works none
    | checking stamp attempt | leaving stamp attempt =>
      simp only [Host.throws, hpc, Host.retries] at hst
      split at hst
      · cases hst
        exact .on _ rfl rfl rfl (Nat.le_refl _) rfl rfl
      · cases hst
        exact returns_works (h := h) stamp
    | _ =>
      simp only [Host.throws, hpc] at hst
      cases hst
      exact finishes_works none

theorem probes_guarded {found : Host.Probe} (hg : Guarded h w) (hp : p ∈ w.live) (hst : h.probes w p found = some (u, o)) :
    Guarded h u := by
  unfold Host.probes at hst
  split at hst
  · rename_i s t holder ageMs hpc
    have hk := hg.knows p hp
    rw [hpc] at hk
    split at hst
    · split at hst
      · cases hst
      · rename_i hnone
        cases hst
        have hgone : Gone w holder := by
          refine gone_of_pid hk.1 (fun q hq hpid => hnone ?_)
          exact List.any_eq_true.2 ⟨q, hq, beq_iff_eq.2 hpid⟩
        exact hg.goes hp hpc rfl (fun hu => ⟨hgone.mono hu, hk.2⟩)
    · split at hst
      · cases hst
        exact hg.goes hp hpc rfl (fun _ => trivial)
      · cases hst
        exact hg.goes hp hpc rfl (fun hu => ⟨hk.1.mono hu, hk.2⟩)
    · cases hst
      exact hg.goes hp hpc rfl (fun _ => trivial)
  · cases hst

theorem starts_guarded (hg : Guarded h w) (hp : p ∈ w.live) (hst : h.starts w p start = some (u, o)) : Guarded h u := by
  unfold Host.starts at hst
  split at hst
  · rename_i s t holder hpc
    have hk := hg.knows p hp
    rw [hpc] at hk
    split at hst
    · cases hst
    · rename_i hlive
      split at hst
      · rename_i hstart
        cases hst
        exact hg.goes hp hpc rfl (fun hu => ⟨(gone_of_start hk.1 hlive hstart).mono hu, hk.2⟩)
      · cases hst
        exact hg.goes hp hpc rfl (fun _ => trivial)
  · cases hst

theorem givesUp_guarded (hg : Guarded h w) (hp : p ∈ w.live) (hst : h.givesUp w p = some (u, o)) : Guarded h u := by
  unfold Host.givesUp at hst
  split at hst
  · cases hst
    exact hg.leaves hp
  · cases hst

theorem spawns_guarded (hg : Guarded h w) (hlive : p ∉ w.live) (hdead : p ∉ w.dead) (hpid : ∀ q ∈ w.live, h.pid q ≠ h.pid p) :
    Guarded h { w with live := p :: w.live } := by
  have hidle : w.pc p = .idle := hg.unstarted p hlive hdead
  have hold : ∀ q ∈ p :: w.live, w.pc q ≠ .idle → q ∈ w.live := by
    intro q hq hne
    rcases List.mem_cons.1 hq with rfl | hq
    · exact absurd hidle hne
    · exact hq
  have htoken : ∀ q ∈ p :: w.live, ∀ t, (w.pc q).token = some t → q ∈ w.live := by
    intro q hq t ht
    refine hold q hq (fun hqi => ?_)
    rw [hqi] at ht
    cases ht
  have hcreated : ∀ q ∈ p :: w.live, ∀ i, (w.pc q).created = some i → q ∈ w.live := by
    intro q hq i hi
    refine hold q hq (fun hqi => ?_)
    rw [hqi] at hi
    cases hi
  have hu : Evolves w { w with live := p :: w.live } :=
    ⟨Nat.le_refl _, fun q hq t ht => .inr ⟨htoken q hq t ht, ht, id⟩⟩
  refine ⟨?_, fun q hq t ht => hg.drawn q (htoken q hq t ht) t ht, fun q hq q' hq' t ht ht' =>
    hg.carried q (htoken q hq t ht) q' (htoken q' hq' t ht') t ht ht', fun q hq i hi => hg.opened q (hcreated q hq i hi) i hi,
    fun q hq q' hq' i hi hi' => hg.created q (hcreated q hq i hi) q' (hcreated q' hq' i hi') i hi hi',
    fun r hr => (hg.installed r hr).mono hu, fun q hq hq' => hg.unstarted q (fun hl => hq (List.mem_cons_of_mem _ hl)) hq', ?_⟩
  · intro q hq q' hq' hsame
    rcases List.mem_cons.1 hq with rfl | hql
    · rcases List.mem_cons.1 hq' with rfl | hql'
      · rfl
      · exact absurd hsame.symm (hpid q' hql')
    · rcases List.mem_cons.1 hq' with rfl | hql'
      · exact absurd hsame (hpid q hql)
      · exact hg.pids q hql q' hql' hsame
  · intro q hq
    rcases List.mem_cons.1 hq with rfl | hq
    · have hk : Knows h { w with live := q :: w.live } q .idle := trivial
      rwa [← hidle] at hk
    · exact (hg.knows q hq).mono hu (fun _ => rfl)

theorem dies_guarded (hg : Guarded h w) (p : Nat) : Guarded h { w with live := w.live.filter (· ≠ p), dead := p :: w.dead } := by
  have hsub : ∀ q ∈ w.live.filter (· ≠ p), q ∈ w.live := fun q hq => (List.mem_filter.1 hq).1
  have hu : Evolves w { w with live := w.live.filter (· ≠ p), dead := p :: w.dead } :=
    ⟨Nat.le_refl _, fun q hq t ht => .inr ⟨hsub q hq, ht, id⟩⟩
  refine ⟨fun q hq q' hq' => hg.pids q (hsub q hq) q' (hsub q' hq'), fun q hq => hg.drawn q (hsub q hq),
    fun q hq q' hq' => hg.carried q (hsub q hq) q' (hsub q' hq'), fun q hq => hg.opened q (hsub q hq),
    fun q hq q' hq' => hg.created q (hsub q hq) q' (hsub q' hq'), fun r hr => (hg.installed r hr).mono hu, ?_,
    fun q hq => (hg.knows q (hsub q hq)).mono hu (fun _ => rfl)⟩
  intro q hq hq'
  have hne : q ≠ p := fun hqp => hq' (hqp ▸ List.mem_cons_self)
  refine hg.unstarted q (fun hl => hq (List.mem_filter.2 ⟨hl, decide_eq_true hne⟩)) (fun hd => hq' (List.mem_cons_of_mem _ hd))

end Steps

/-- **One step keeps what holds of the guard.** -/
theorem step_guarded {e : Event} {o : List Obs} (hg : Guarded h w) (hst : h.step w e = some (u, o)) : Guarded h u := by
  cases e with
  | spawn p =>
    obtain ⟨hfresh, hst⟩ := Option.ite_none_right_eq_some.1 hst
    cases hst
    exact spawns_guarded hg hfresh.1 hfresh.2.1 hfresh.2.2
  | die p =>
    rw [Host.step] at hst
    split at hst
    · cases hst
      exact dies_guarded hg p
    · cases hst
  | acquireLock p | acquireFreeLock p =>
    obtain ⟨hcall, hst⟩ := Option.ite_none_right_eq_some.1 hst
    cases hst
    refine hg.keep (follows_on rfl rfl (Nat.le_refl _) rfl rfl ?_ ?_ (fun i hi => by cases hi)) hcall.1 rfl trivial
    · rw [hcall.2]
      rfl
    · rw [hcall.2]
      intro hin
      cases hin
  | refreshLock p =>
    obtain ⟨hcall, hst⟩ := Option.ite_none_right_eq_some.1 hst
    cases hst
    exact hg.draws hcall.1 (by rw [hcall.2]; rfl) .refresh
  | releaseLock p =>
    obtain ⟨hcall, hst⟩ := Option.ite_none_right_eq_some.1 hst
    cases hst
    exact hg.draws hcall.1 (by rw [hcall.2]; rfl) .release
  | perform p =>
    obtain ⟨hp, hst⟩ := Option.ite_none_right_eq_some.1 hst
    exact perform_guarded hg hp hst
  | throws p code =>
    obtain ⟨hp, hst⟩ := Option.ite_none_right_eq_some.1 hst
    exact throws_guarded hg hp hst
  | probes p found =>
    obtain ⟨hp, hst⟩ := Option.ite_none_right_eq_some.1 hst
    exact probes_guarded hg hp hst
  | starts p start =>
    obtain ⟨hp, hst⟩ := Option.ite_none_right_eq_some.1 hst
    exact starts_guarded hg hp hst
  | givesUp p =>
    obtain ⟨hp, hst⟩ := Option.ite_none_right_eq_some.1 hst
    exact givesUp_guarded hg hp hst
  | tick ms =>
    cases hst
    exact hg.outside w.lock _

theorem Begun.guarded (hw : Begun w) : Guarded h w := by
  have hnone : ∀ q, q ∉ w.live := by
    intro q hq
    rw [hw.live] at hq
    cases hq
  refine ⟨fun p hp => absurd hp (hnone p), fun p hp => absurd hp (hnone p), fun p hp => absurd hp (hnone p),
    fun p hp => absurd hp (hnone p), fun p hp => absurd hp (hnone p), fun r hr => ⟨?_, fun q hq => absurd hq (hnone q)⟩,
    fun p _ _ => hw.idle p, fun p hp => absurd hp (hnone p)⟩
  obtain ⟨g, hguard, hrecord⟩ := Option.bind_eq_some_iff.1 hr
  exact hw.guard g r hguard hrecord

end Writer
end Wollipog

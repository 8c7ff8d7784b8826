import Wollipog.Lib.Run
/-!
# Fencing — versioned cells written under tokens

A token names a cell and the version it last saw. A take writes the cell and may grant a new token; a holder writes
while its version is the cell's.
-/
namespace Fencing

open Sys

structure Discipline (S : Type*) where
  terminal : S → Prop
  exclusive : S → Prop
  /-- What a holder's write may do. -/
  allowed : S → S → Prop
  disjoint : ∀ s, terminal s → ¬ exclusive s
  final : ∀ s t, terminal s → allowed s t → t = s

structure Reg (κ S : Type*) where
  cell : κ → Option (Nat × S)
  token : Nat → Option (κ × Nat)
  /-- The next token to grant. -/
  next : Nat
  /-- The cells that were removed. -/
  gone : κ → Prop

inductive Ev (κ S : Type*)
  | quiet
  | remove (k : κ)
  | create (k : κ) (granted : Option Nat) (new : Nat × S)
  | take (k : κ) (granted : Option Nat) (old new : Nat × S)
  | write (k : κ) (h : Nat) (old new : Nat × S)

variable {κ S : Type*}

def Ev.grants (k : κ) (h : Nat) : Ev κ S → Prop
  | .create j g _ => j = k ∧ g = some h
  | .take j g _ _ => j = k ∧ g = some h
  | _ => False

/-- No token, or the next one, on `k` at version `n`. -/
def Granted (k : κ) (n : Nat) (g : Option Nat) (t u : Reg κ S) : Prop :=
  (g = none ∧ u.token = t.token ∧ u.next = t.next) ∨
    (g = some t.next ∧ u.token = Function.update t.token t.next (some (k, n)) ∧ u.next = t.next + 1)

/-- The writes a holder may make: from the version it saw, or back out of an exclusive state of its own. -/
def MayWrite (D : Discipline S) (n : Nat) (old new : Nat × S) : Prop :=
  n = old.1 ∨ (n + 1 = old.1 ∧ D.exclusive old.2 ∧ ¬ D.exclusive new.2)

/-- **What every reachable register keeps**: tokens are granted, at most the cell's version, and at most one is at it. -/
structure Inv (t : Reg κ S) : Prop where
  granted : ∀ h x, t.token h = some x → h < t.next
  behind : ∀ h k n, t.token h = some (k, n) → (∃ v, t.cell k = some v ∧ n ≤ v.1) ∨ (t.cell k = none ∧ t.gone k)
  unique : ∀ h h' k v, t.cell k = some v → t.token h = some (k, v.1) → t.token h' = some (k, v.1) → h = h'

variable {t u : Reg κ S}

variable {h j n : Nat} {g : Option Nat}

theorem Granted.token {k : κ} (h : Granted k n g t u) {x : κ × Nat}
    (hj : u.token j = some x) : t.token j = some x ∨ (j = t.next ∧ g = some t.next ∧ x = (k, n)) := by
  rcases h with ⟨-, ht, -⟩ | ⟨hg, ht, -⟩
  · rw [ht] at hj
    exact .inl hj
  · rw [ht] at hj
    by_cases hjn : j = t.next
    · subst hjn
      rw [Function.update_self, Option.some.injEq] at hj
      exact .inr ⟨rfl, hg, hj.symm⟩
    · rw [Function.update_of_ne hjn] at hj
      exact .inl hj

theorem Granted.next {k : κ} {n : Nat} {g : Option Nat} (h : Granted k n g t u) :
    t.next ≤ u.next ∧ (g = some t.next → t.next < u.next) := by
  rcases h with ⟨hg, -, hn⟩ | ⟨-, -, hn⟩
  · rw [hn, hg]
    exact ⟨Nat.le_refl _, fun h => nomatch h⟩
  · rw [hn]
    exact ⟨Nat.le_succ _, fun _ => Nat.lt_succ_self _⟩

theorem Granted.eq_next {k : κ} (hg : Granted k n g t u) (h' : g = some h) : h = t.next := by
  rcases hg with ⟨hn, -, -⟩ | ⟨hs, -, -⟩
  · rw [hn] at h'; cases h'
  · rw [hs] at h'; exact (Option.some.inj h').symm

theorem Inv.le {t : Reg κ S} (hi : Inv t) {k : κ} {v : Nat × S} (hx : t.token h = some (k, n))
    (hv : t.cell k = some v) : n ≤ v.1 := by
  rcases hi.behind h k n hx with ⟨w, hw, hle⟩ | ⟨hn, -⟩
  · rw [hv] at hw
    cases hw
    exact hle
  · rw [hv] at hn
    cases hn

theorem written_token {k : κ} {m : Nat}
    (token : u.token = t.token ∨ u.token = Function.update t.token h (some (k, m))) {x : κ × Nat}
    (hj : u.token j = some x) : t.token j = some x ∨ (j = h ∧ x = (k, m)) := by
  rcases token with ht | ht
  · rw [ht] at hj
    exact .inl hj
  · rw [ht] at hj
    by_cases hjh : j = h
    · subst hjh
      rw [Function.update_self, Option.some.injEq] at hj
      exact .inr ⟨rfl, hj.symm⟩
    · rw [Function.update_of_ne hjh] at hj
      exact .inl hj

variable [DecidableEq κ]

inductive Move (D : Discipline S) : Reg κ S → Ev κ S → Reg κ S → Prop
  | quiet {t u : Reg κ S} (cell : u.cell = t.cell) (next : u.next = t.next) (gone : u.gone = t.gone)
      (token : ∀ h x, u.token h = some x → t.token h = some x) : Move D t .quiet u
  | remove {t u : Reg κ S} (k : κ) (cell : u.cell = Function.update t.cell k none) (next : u.next = t.next)
      (token : u.token = t.token) (gone : u.gone = Function.update t.gone k True) : Move D t (.remove k) u
  | create {t u : Reg κ S} (k : κ) (g : Option Nat) (new : Nat × S) (absent : t.cell k = none) (never : ¬ t.gone k)
      (cell : u.cell = Function.update t.cell k (some new)) (granted : Granted k new.1 g t u) (gone : u.gone = t.gone) :
      Move D t (.create k g new) u
  | take {t u : Reg κ S} (k : κ) (g : Option Nat) (old new : Nat × S) (present : t.cell k = some old)
      (version : new.1 = old.1 + 1) (live : ¬ D.terminal old.2) (settles : D.exclusive old.2 → D.terminal new.2)
      (free : ¬ D.exclusive new.2) (cell : u.cell = Function.update t.cell k (some new))
      (granted : Granted k new.1 g t u) (gone : u.gone = t.gone) : Move D t (.take k g old new) u
  | write {t u : Reg κ S} (k : κ) (h n : Nat) (old new : Nat × S) (present : t.cell k = some old)
      (version : new.1 = old.1 + 1) (allowed : D.allowed old.2 new.2) (holds : t.token h = some (k, n))
      (may : MayWrite D n old new) (cell : u.cell = Function.update t.cell k (some new))
      (token : u.token = t.token ∨ u.token = Function.update t.token h (some (k, new.1)))
      (next : u.next = t.next) (gone : u.gone = t.gone) : Move D t (.write k h old new) u

variable {D : Discipline S}

theorem Inv.granting (hi : Inv t) {k : κ} {new : Nat × S}
    (cell : u.cell = Function.update t.cell k (some new)) (granted : Granted k new.1 g t u) (gone : u.gone = t.gone)
    (below : ∀ h n, t.token h = some (k, n) → n < new.1) : Inv u := by
  refine ⟨fun h x hx => ?_, fun h j n hx => ?_, fun h h' j v hv h1 h2 => ?_⟩
  · rcases granted.token hx with hx | ⟨rfl, hg, -⟩
    · exact Nat.lt_of_lt_of_le (hi.granted h x hx) granted.next.1
    · exact granted.next.2 hg
  · rw [cell, gone]
    by_cases hj : j = k
    · subst hj
      rw [Function.update_self]
      rcases granted.token hx with hx | ⟨-, -, heq⟩
      · exact .inl ⟨new, rfl, Nat.le_of_lt (below h n hx)⟩
      · cases heq
        exact .inl ⟨new, rfl, Nat.le_refl _⟩
    · rw [Function.update_of_ne hj]
      rcases granted.token hx with hx | ⟨-, -, heq⟩
      · exact hi.behind h j n hx
      · exact absurd (congrArg Prod.fst heq) hj
  · rw [cell] at hv
    by_cases hj : j = k
    · subst hj
      rw [Function.update_self] at hv
      cases hv
      have hnew : ∀ i, u.token i = some (j, new.1) → i = t.next := by
        intro i hi'
        rcases granted.token hi' with hx | ⟨rfl, -, -⟩
        · exact absurd (below i new.1 hx) (Nat.lt_irrefl _)
        · rfl
      rw [hnew h h1, hnew h' h2]
    · rw [Function.update_of_ne hj] at hv
      have hold : ∀ i, u.token i = some (j, v.1) → t.token i = some (j, v.1) := by
        intro i hi'
        rcases granted.token hi' with hx | ⟨-, -, heq⟩
        · exact hx
        · exact absurd (congrArg Prod.fst heq) hj
      exact hi.unique h h' j v hv (hold h h1) (hold h' h2)

/-- **One move keeps the invariant.** -/
theorem Inv.move {e : Ev κ S} (hi : Inv t) (hm : Move D t e u) : Inv u := by
  cases hm with
  | quiet cell next gone token =>
    refine ⟨fun h x hx => ?_, fun h k n hx => ?_, fun h h' k v hv h1 h2 => ?_⟩
    · rw [next]
      exact hi.granted h x (token h x hx)
    · rw [cell, gone]
      exact hi.behind h k n (token h _ hx)
    · rw [cell] at hv
      exact hi.unique h h' k v hv (token h _ h1) (token h' _ h2)
  | remove k cell next token gone =>
    refine ⟨fun h x hx => ?_, fun h j n hx => ?_, fun h h' j v hv h1 h2 => ?_⟩
    · rw [token] at hx
      rw [next]
      exact hi.granted h x hx
    · rw [token] at hx
      rw [cell, gone]
      by_cases hj : j = k
      · subst hj
        rw [Function.update_self, Function.update_self]
        exact .inr ⟨rfl, trivial⟩
      · rw [Function.update_of_ne hj, Function.update_of_ne hj]
        exact hi.behind h j n hx
    · rw [token] at h1 h2
      rw [cell] at hv
      by_cases hj : j = k
      · subst hj
        rw [Function.update_self] at hv
        cases hv
      · rw [Function.update_of_ne hj] at hv
        exact hi.unique h h' j v hv h1 h2
  | create _ _ new absent never cell granted gone =>
    refine hi.granting cell granted gone (fun h n hx => ?_)
    -- a token on an absent cell is on a removed one
    rcases hi.behind h _ n hx with ⟨v, hv, -⟩ | ⟨-, hg⟩
    · rw [absent] at hv
      cases hv
    · exact absurd hg never
  | take _ _ old new present version live settles free cell granted gone =>
    refine hi.granting cell granted gone (fun h n hx => ?_)
    have := hi.le hx present
    omega
  | write k h n old new present version allowed holds may cell token next gone =>
    refine ⟨fun j x hx => ?_, fun j i m hx => ?_, fun j j' i v hv h1 h2 => ?_⟩
    · rw [next]
      rcases written_token token hx with hx | ⟨rfl, -⟩
      · exact hi.granted j x hx
      · exact hi.granted j _ holds
    · rw [cell, gone]
      by_cases hik : i = k
      · subst hik
        rw [Function.update_self]
        refine .inl ⟨new, rfl, ?_⟩
        rcases written_token token hx with hx | ⟨-, heq⟩
        · have := hi.le hx present
          omega
        · cases heq
          exact Nat.le_refl _
      · rw [Function.update_of_ne hik]
        rcases written_token token hx with hx | ⟨-, heq⟩
        · exact hi.behind j i m hx
        · cases heq
          exact absurd rfl hik
    · rw [cell] at hv
      by_cases hik : i = k
      · subst hik
        rw [Function.update_self] at hv
        cases hv
        have hwriter : ∀ a, u.token a = some (i, new.1) → a = h := by
          intro a ha
          rcases written_token token ha with hx | ⟨rfl, -⟩
          · have := hi.le hx present
            omega
          · rfl
        rw [hwriter j h1, hwriter j' h2]
      · rw [Function.update_of_ne hik] at hv
        have hold : ∀ a, u.token a = some (i, v.1) → t.token a = some (i, v.1) := by
          intro a ha
          rcases written_token token ha with hx | ⟨-, heq⟩
          · exact hx
          · exact absurd (congrArg Prod.fst heq) hik
        exact hi.unique j j' i v hv (hold j h1) (hold j' h2)

def Ev.Rises : Ev κ S → Prop
  | .take _ _ old new => old.1 < new.1
  | .write _ _ old new => old.1 < new.1
  | _ => True

theorem Move.rises {e : Ev κ S} (hm : Move D t e u) : e.Rises := by
  cases hm with
  | take _ _ old new _ version => exact Nat.lt_of_succ_le (Nat.le_of_eq version.symm)
  | write _ _ _ old new _ version => exact Nat.lt_of_succ_le (Nat.le_of_eq version.symm)
  | quiet => trivial
  | remove => trivial
  | create => trivial

/-- **Versions increase** at every take and every write. -/
theorem version_increases {l : List (Ev κ S)} (h : Trace (Move D) t l u) : ∀ e ∈ l, e.Rises := by
  refine h.hist (fun l _ => ∀ e ∈ l, e.Rises) (by simp) (fun l t a u ih hm e he => ?_)
  rcases List.mem_append.1 he with hl | ha
  · exact ih e hl
  · rw [List.mem_singleton] at ha
    exact ha ▸ hm.rises

/-- The cell is in the state `s`, or was removed for good. -/
def Settled (k : κ) (s : S) (t : Reg κ S) : Prop := (∃ v, t.cell k = some v ∧ v.2 = s) ∨ (t.cell k = none ∧ t.gone k)

/-- **A terminal state is never left**: the cell keeps it until the cell is removed, and is not created again. -/
theorem Settled.trace {l : List (Ev κ S)} {k : κ} {s : S} (hs : D.terminal s)
    (h : Trace (Move D) t l u) (h0 : Settled k s t) : Settled k s u := by
  refine h.hist (fun _ t => Settled k s t) h0 (fun _ t a u ih hm => ?_)
  unfold Settled at ih ⊢
  cases hm with
  | quiet cell next gone token => rw [cell, gone]; exact ih
  | remove j cell next token gone =>
    rw [cell, gone]
    by_cases hk : k = j
    · subst hk
      simp
    · rw [Function.update_of_ne hk, Function.update_of_ne hk]
      exact ih
  | create j g new absent never cell granted gone =>
    rw [cell, gone]
    by_cases hk : k = j
    · subst hk
      rcases ih with ⟨v, hv, -⟩ | ⟨-, hg⟩
      · rw [absent] at hv
        cases hv
      · exact absurd hg never
    · rw [Function.update_of_ne hk]
      exact ih
  | take j g old new present version live settles free cell granted gone =>
    rw [cell, gone]
    by_cases hk : k = j
    · subst hk
      rcases ih with ⟨v, hv, rfl⟩ | ⟨hn, -⟩
      · rw [present] at hv
        cases hv
        exact absurd hs live
      · rw [present] at hn
        cases hn
    · rw [Function.update_of_ne hk]
      exact ih
  | write j h n old new present version allowed holds may cell token next gone =>
    rw [cell, gone]
    by_cases hk : k = j
    · subst hk
      rcases ih with ⟨v, hv, rfl⟩ | ⟨hn, -⟩
      · rw [present] at hv
        cases hv
        rw [Function.update_self]
        exact .inl ⟨new, rfl, D.final _ _ hs allowed⟩
      · rw [present] at hn
        cases hn
    · rw [Function.update_of_ne hk]
      exact ih

/-- The token `h` is on `k` and can never write it again. -/
def Fenced (D : Discipline S) (k : κ) (h : Nat) (t : Reg κ S) : Prop :=
  h < t.next ∧ ∀ j n, t.token h = some (j, n) → j = k ∧
    ((∃ v, t.cell k = some v ∧ n < v.1 ∧ (n + 1 = v.1 → ¬ D.exclusive v.2)) ∨ (t.cell k = none ∧ t.gone k))

def GrantsKept (l : List (Ev κ S)) (t : Reg κ S) : Prop :=
  ∀ e ∈ l, ∀ k h, e.grants k h → h < t.next ∧ ∀ j n, t.token h = some (j, n) → j = k

theorem Move.token_back {e : Ev κ S} (hm : Move D t e u) (hh : h < t.next) :
    h < u.next ∧ ∀ j n, u.token h = some (j, n) → ∃ m, t.token h = some (j, m) ∧
      (m = n ∨ ∃ old new, e = .write j h old new) := by
  cases hm with
  | quiet cell next gone token =>
    rw [next]
    exact ⟨hh, fun j n hx => ⟨n, token h _ hx, .inl rfl⟩⟩
  | remove _ cell next token gone =>
    rw [next, token]
    exact ⟨hh, fun j n hx => ⟨n, hx, .inl rfl⟩⟩
  | create _ _ new absent never cell granted gone | take _ _ old new present version live settles free cell granted gone =>
    refine ⟨Nat.lt_of_lt_of_le hh granted.next.1, fun j n hx => ?_⟩
    rcases granted.token hx with hx | ⟨rfl, -, -⟩
    · exact ⟨n, hx, .inl rfl⟩
    · exact absurd hh (Nat.lt_irrefl _)
  | write k i m old new present version allowed holds may cell token next gone =>
    rw [next]
    refine ⟨hh, fun j n hx => ?_⟩
    rcases written_token token hx with hx | ⟨rfl, heq⟩
    · exact ⟨n, hx, .inl rfl⟩
    · cases heq
      exact ⟨m, holds, .inr ⟨old, new, rfl⟩⟩

theorem GrantsKept.move {l : List (Ev κ S)} {a : Ev κ S} (hg : GrantsKept l t) (hi : Inv t)
    (hm : Move D t a u) : GrantsKept (l ++ [a]) u := by
  intro e he k h hgr
  rcases List.mem_append.1 he with hl | ha
  · obtain ⟨hh, hk⟩ := hg e hl k h hgr
    obtain ⟨hu, hback⟩ := hm.token_back hh
    refine ⟨hu, fun j n hx => ?_⟩
    obtain ⟨m, hm', -⟩ := hback j n hx
    exact hk j m hm'
  · rw [List.mem_singleton] at ha
    subst ha
    have hfresh : ∀ {v : Nat} {g : Option Nat}, Granted k v g t u → g = some h →
        h < u.next ∧ ∀ j n, u.token h = some (j, n) → j = k := by
      intro v g granted hsome
      have hn := granted.eq_next hsome
      subst hn
      refine ⟨granted.next.2 hsome, fun j n hx => ?_⟩
      rcases granted.token hx with hx | ⟨-, -, heq⟩
      · exact absurd (hi.granted _ _ hx) (Nat.lt_irrefl _)
      · cases heq
        rfl
    cases hm with
    | create _ _ new absent never cell granted gone | take _ _ old new present version live settles free cell granted gone =>
      obtain ⟨rfl, hsome⟩ := hgr
      exact hfresh granted hsome
    | quiet => cases hgr
    | remove => cases hgr
    | write => cases hgr

theorem Fenced.no_write {a : Ev κ S} {k : κ} (hf : Fenced D k h t) (hm : Move D t a u) :
    ∀ j old new, a ≠ .write j h old new := by
  rintro j old new rfl
  cases hm with
  | write _ _ n old new present version allowed holds may cell token next gone =>
    obtain ⟨rfl, hb⟩ := hf.2 _ _ holds
    rcases hb with ⟨v, hv, hlt, hne⟩ | ⟨hn, -⟩
    · rw [present] at hv
      cases hv
      rcases may with heq | ⟨heq, hex, -⟩
      · omega
      · exact hne heq hex
    · rw [present] at hn
      cases hn

theorem Fenced.move {a : Ev κ S} {k : κ} (hf : Fenced D k h t) (hm : Move D t a u) : Fenced D k h u := by
  have hno := hf.no_write hm
  obtain ⟨hu, hback⟩ := hm.token_back hf.1
  refine ⟨hu, fun j n hx => ?_⟩
  obtain ⟨m, ht, heq | ⟨old, new, heq⟩⟩ := hback j n hx
  swap
  · exact absurd heq (hno j old new)
  subst heq
  obtain ⟨rfl, hb⟩ := hf.2 j m ht
  refine ⟨rfl, ?_⟩
  cases hm with
  | quiet cell next gone token => rw [cell, gone]; exact hb
  | remove i cell next token gone =>
    rw [cell, gone]
    by_cases hi : j = i
    · subst hi
      simp
    · rw [Function.update_of_ne hi, Function.update_of_ne hi]
      exact hb
  | create i g new absent never cell granted gone =>
    rw [cell, gone]
    by_cases hi : j = i
    · subst hi
      rcases hb with ⟨v, hv, -⟩ | ⟨-, hg⟩
      · rw [absent] at hv
        cases hv
      · exact absurd hg never
    · rw [Function.update_of_ne hi]
      exact hb
  | take i g old new present version live settles free cell granted gone =>
    rw [cell, gone]
    by_cases hi : j = i
    · subst hi
      rw [Function.update_self]
      rcases hb with ⟨v, hv, hlt, -⟩ | ⟨hn, -⟩
      · rw [present] at hv
        cases hv
        exact .inl ⟨new, rfl, by omega, fun _ => free⟩
      · rw [present] at hn
        cases hn
    · rw [Function.update_of_ne hi]
      exact hb
  | write i h' n' old new present version allowed holds may cell token next gone =>
    rw [cell, gone]
    by_cases hi : j = i
    · subst hi
      rw [Function.update_self]
      rcases hb with ⟨v, hv, hlt, -⟩ | ⟨hn, -⟩
      · rw [present] at hv
        cases hv
        exact .inl ⟨new, rfl, by omega, fun heq => absurd heq (by omega)⟩
      · rw [present] at hn
        cases hn
    · rw [Function.update_of_ne hi]
      exact hb

/-- **A take fences off every token granted before it**: such a token never writes again. -/
theorem taken_never_writes {l : List (Ev κ S)} (h : Trace (Move D) t l u) (hi : Inv t) (k : κ)
    (i : Nat) : ∀ l₁ l₂ l₃ a b, l = l₁ ++ a :: (l₂ ++ b :: l₃) →
      ((∃ g old new, a = .take k g old new) ∧ ∃ e ∈ l₁, e.grants k i) → ¬ ∃ j old new, b = .write j i old new := by
  intro l₁ l₂ l₃ a b hl hx hz
  have hb := h.until_break (fun l t => Inv t ∧ GrantsKept l t) (Fenced D k i)
    (fun l₁ a => (∃ g old new, a = .take k g old new) ∧ ∃ e ∈ l₁, e.grants k i)
    (fun b => ∃ j old new, b = .write j i old new) (fun _ => False) ⟨hi, by simp [GrantsKept]⟩
    (fun l t a u ⟨hi, hg⟩ hm => ⟨hi.move hm, hg.move hi hm⟩) ?_
    (fun l t a u _ hm hf => .inr (hf.move hm))
    (fun l t a u _ hm hf ⟨j, old, new, he⟩ => hf.no_write hm j old new he) l₁ l₂ l₃ a b hl hx hz
  · obtain ⟨_, -, hF⟩ := hb
    exact hF
  · rintro l t a u ⟨hi, hg⟩ hm ⟨⟨g, old, new, rfl⟩, e, he, hgr⟩
    obtain ⟨hlt, hk⟩ := hg e he k i hgr
    obtain ⟨hu, hback⟩ := hm.token_back hlt
    refine ⟨hu, fun j n hx => ?_⟩
    obtain ⟨m, ht, heq | ⟨_, _, heq⟩⟩ := hback j n hx
    swap
    · cases heq
    subst heq
    have hj := hk j m ht
    subst hj
    cases hm with
    | take _ _ old new present version live settles free cell granted gone =>
      have hle := hi.le ht present
      refine ⟨rfl, .inl ⟨new, by rw [cell, Function.update_self], by omega, fun _ => free⟩⟩

/-- Nobody but `h` can bring `k` into the exclusive state before it is left. -/
def HeldBy (D : Discipline S) (k : κ) (h : Nat) (t : Reg κ S) : Prop :=
  (∃ v, t.cell k = some v ∧ (D.terminal v.2 ∨
    (D.exclusive v.2 ∧ ∀ j n, j ≠ h → t.token j = some (k, n) → n < v.1))) ∨ (t.cell k = none ∧ t.gone k)

def Ev.leaves (D : Discipline S) (k : κ) (e : Ev κ S) : Prop :=
  ∃ j old new, e = .write k j old new ∧ D.exclusive old.2 ∧ ¬ D.exclusive new.2 ∧ ¬ D.terminal new.2 ∧
    D.allowed old.2 new.2

theorem HeldBy.keep {k : κ} (hh : HeldBy D k h t) (hcell : u.cell k = t.cell k) (hgone : u.gone = t.gone)
    (htoken : ∀ j n, u.token j = some (k, n) → t.token j = some (k, n)) : HeldBy D k h u := by
  unfold HeldBy at hh ⊢
  rw [hcell, hgone]
  rcases hh with ⟨v, hv, ht | ⟨hex, hlt⟩⟩ | hn
  · exact .inl ⟨v, hv, .inl ht⟩
  · exact .inl ⟨v, hv, .inr ⟨hex, fun j n hj hx => hlt j n hj (htoken j n hx)⟩⟩
  · exact .inr hn

theorem HeldBy.move {a : Ev κ S} {k : κ} (hi : Inv t) (hm : Move D t a u)
    (hh : HeldBy D k h t) : a.leaves D k ∨ HeldBy D k h u := by
  cases hm with
  | quiet cell next gone token => exact .inr (hh.keep (by rw [cell]) gone (fun j n hx => token j _ hx))
  | remove i cell next token gone =>
    unfold HeldBy at hh ⊢
    rw [cell, gone, token]
    by_cases hk : k = i
    · subst hk
      simp
    · rw [Function.update_of_ne hk, Function.update_of_ne hk]
      exact .inr hh
  | create i g new absent never cell granted gone =>
    by_cases hk : k = i
    · subst hk
      unfold HeldBy at hh ⊢
      rw [cell, gone]
      rcases hh with ⟨v, hv, -⟩ | ⟨-, hg⟩
      · rw [absent] at hv
        cases hv
      · exact absurd hg never
    · refine .inr (hh.keep (by rw [cell, Function.update_of_ne hk]) gone (fun j n hx => ?_))
      rcases granted.token hx with hx | ⟨-, -, heq⟩
      · exact hx
      · cases heq
        exact absurd rfl hk
  | take i g old new present version live settles free cell granted gone =>
    by_cases hk : k = i
    · subst hk
      unfold HeldBy at hh ⊢
      rw [cell, gone]
      rw [Function.update_self]
      rcases hh with ⟨v, hv, ht | ⟨hex, -⟩⟩ | ⟨hn, -⟩
      · rw [present] at hv
        cases hv
        exact absurd ht live
      · rw [present] at hv
        cases hv
        exact .inr (.inl ⟨new, rfl, .inl (settles hex)⟩)
      · rw [present] at hn
        cases hn
    · refine .inr (hh.keep (by rw [cell, Function.update_of_ne hk]) gone (fun j n hx => ?_))
      rcases granted.token hx with hx | ⟨-, -, heq⟩
      · exact hx
      · cases heq
        exact absurd rfl hk
  | write i w n old new present version allowed holds may cell token next gone =>
    by_cases hk : k = i
    · subst hk
      unfold HeldBy at hh ⊢
      rw [cell, gone]
      rw [Function.update_self]
      rcases hh with ⟨v, hv, ht | ⟨hex, hlt⟩⟩ | ⟨hn, -⟩
      · rw [present] at hv
        cases hv
        exact .inr (.inl ⟨new, rfl, .inl (by rw [D.final _ _ ht allowed]; exact ht)⟩)
      · rw [present] at hv
        cases hv
        by_cases hT : D.terminal new.2
        · exact .inr (.inl ⟨new, rfl, .inl hT⟩)
        by_cases hE : D.exclusive new.2
        · refine .inr (.inl ⟨new, rfl, .inr ⟨hE, fun j m hj hx => ?_⟩⟩)
          rcases written_token token hx with hx | ⟨rfl, -⟩
          · have := hi.le hx present
            omega
          · -- only `h` is at the cell's version, and a write back leaves the exclusive state
            rcases may with heq | ⟨-, -, hne⟩
            · have := hlt j n hj holds
              omega
            · exact absurd hE hne
        · exact .inl ⟨w, old, new, rfl, hex, hE, hT, allowed⟩
      · rw [present] at hn
        cases hn
    · refine .inr (hh.keep (by rw [cell, Function.update_of_ne hk]) gone (fun j m hx => ?_))
      rcases written_token token hx with hx | ⟨-, heq⟩
      · exact hx
      · cases heq
        exact absurd rfl hk

/-- **Between two tokens' entries into the exclusive state of one cell, the state was left alive.** -/
theorem exclusive_once {l : List (Ev κ S)} (h : Trace (Move D) t l u) (hi : Inv t) (k : κ) (i i' : Nat)
    (hne : i' ≠ i) : ∀ l₁ l₂ l₃ a b, l = l₁ ++ a :: (l₂ ++ b :: l₃) →
      (∃ old new, a = .write k i old new ∧ D.exclusive new.2) →
      (∃ old new, b = .write k i' old new ∧ D.exclusive new.2) → ∃ y ∈ l₂, Ev.leaves D k y := by
  refine h.until_break (fun _ t => Inv t) (HeldBy D k i) (fun _ a => ∃ old new, a = .write k i old new ∧ D.exclusive new.2)
    (fun b => ∃ old new, b = .write k i' old new ∧ D.exclusive new.2) (Ev.leaves D k) hi
    (fun _ _ _ _ hi hm => hi.move hm) ?_ (fun _ _ _ _ hi hm hh => hh.move hi hm) ?_
  · rintro _ t _ u hi hm ⟨old, new, rfl, hex⟩
    cases hm with
    | write _ _ n _ _ present version allowed holds may cell token next gone =>
      refine .inl ⟨new, by rw [cell, Function.update_self], .inr ⟨hex, fun j m hj hx => ?_⟩⟩
      rcases written_token token hx with hx | ⟨rfl, -⟩
      · have := hi.le hx present
        omega
      · exact absurd rfl hj
  · rintro _ t _ u hi hm hh ⟨old, new, rfl, hex⟩
    cases hm with
    | write _ _ n _ _ present version allowed holds may cell token next gone =>
      rcases hh with ⟨v, hv, ht | ⟨hex', hlt⟩⟩ | ⟨hn, -⟩
      · rw [present] at hv
        cases hv
        have hT := ht
        rw [← D.final _ _ ht allowed] at hT
        exact D.disjoint _ hT hex
      · rw [present] at hv
        cases hv
        have hn := hlt i' n hne holds
        rcases may with heq | ⟨-, -, hne'⟩
        · omega
        · exact hne' hex
      · rw [present] at hn
        cases hn

end Fencing

import Wollipog.Lib.Run
import Mathlib
/-!
# Queue — asynchronous work serialized for each key

A call of `run` chains a promise of its own behind the tail of its key; it settles when the call's gate is released.
Promises are named by their calls.
-/
namespace Wollipog.Serial

/-- Where the body of one `run` stands: before its work, in it, after it, and past `finally`. -/
inductive Phase
  | waiting
  | running
  | returned (ok : Bool)
  | settled (ok : Bool)
  deriving DecidableEq

structure Call (κ : Type*) where
  key : κ
  /-- The tail that the call found; `none` is `Promise.resolve()`. -/
  previous : Option ℕ
  phase : Phase
  /-- `queued` is settled. -/
  resolved : Bool

/-- The call's `finally` has run: its gate is released and its own promise is settled. -/
def Call.isSettled {κ : Type*} (c : Call κ) : Bool :=
  match c.phase with
  | .settled _ => true
  | _ => false

/-- How many events are left of the call. -/
def Call.left {κ : Type*} (c : Call κ) : ℕ :=
  (match c.phase with
    | .waiting => 3
    | .running => 2
    | .returned _ => 1
    | .settled _ => 0) + cond c.resolved 0 1

structure KeyedSerialTaskQueue (κ : Type*) where
  calls : List (Call κ)
  tails : κ → Option ℕ

inductive Event (κ : Type*)
  | run (key : κ)
  | start (n : ℕ)
  /-- The promise of the work settles. -/
  | returns (n : ℕ) (ok : Bool)
  /-- The `finally` block and the settling of the call. -/
  | settle (n : ℕ)
  /-- The `queued` promise of a call settles. -/
  | resolve (n : ℕ)

namespace KeyedSerialTaskQueue

variable {κ : Type*}

def empty : KeyedSerialTaskQueue κ := ⟨[], fun _ => none⟩

def free (s : KeyedSerialTaskQueue κ) : Option ℕ → Bool
  | none => true
  | some m => (s.calls[m]?).any Call.resolved

def put (s : KeyedSerialTaskQueue κ) (n : ℕ) (c : Call κ) : KeyedSerialTaskQueue κ := { s with calls := s.calls.set n c }

def left (s : KeyedSerialTaskQueue κ) : ℕ := (s.calls.map Call.left).sum

def step [DecidableEq κ] (s : KeyedSerialTaskQueue κ) : Event κ → Option (KeyedSerialTaskQueue κ × List ℕ)
  | .run key =>
    some (⟨s.calls ++ [⟨key, s.tails key, .waiting, false⟩], Function.update s.tails key (some s.calls.length)⟩, [])
  | .start n => (s.calls[n]?).bind (fun c =>
      if c.phase = .waiting ∧ s.free c.previous then some (s.put n { c with phase := .running }, [n]) else none)
  | .returns n ok => (s.calls[n]?).bind (fun c =>
      if c.phase = .running then some (s.put n { c with phase := .returned ok }, []) else none)
  | .settle n => (s.calls[n]?).bind (fun c =>
      match c.phase with
      | .returned ok =>
        some ({ s.put n { c with phase := .settled ok } with
          tails := if s.tails c.key = some n then Function.update s.tails c.key none else s.tails }, [])
      | _ => none)
  | .resolve n => (s.calls[n]?).bind (fun c =>
      if c.isSettled ∧ s.free c.previous ∧ c.resolved = false then some (s.put n { c with resolved := true }, []) else none)

/-- **The invariant**: a call waits for the last unsettled call of its key before it, and the tail of a key is its last
call. -/
structure Held (s : KeyedSerialTaskQueue κ) : Prop where
  behind : ∀ (n : ℕ) (c : Call κ) (m : ℕ), s.calls[n]? = some c → c.previous = some m →
    m < n ∧ (∃ d, s.calls[m]? = some d ∧ d.key = c.key) ∧
      ∀ (j : ℕ) (d : Call κ), m < j → j < n → s.calls[j]? = some d → d.key ≠ c.key
  first : ∀ (n : ℕ) (c : Call κ), s.calls[n]? = some c → c.previous = none →
    ∀ (j : ℕ) (d : Call κ), j < n → s.calls[j]? = some d → d.key = c.key → d.isSettled = true
  started : ∀ (n : ℕ) (c : Call κ), s.calls[n]? = some c → c.phase ≠ .waiting → s.free c.previous = true
  resolved : ∀ (n : ℕ) (c : Call κ), s.calls[n]? = some c → c.resolved = true →
    c.isSettled = true ∧ s.free c.previous = true
  tail : ∀ (k : κ) (n : ℕ), s.tails k = some n → ∃ c, s.calls[n]? = some c ∧ c.key = k ∧ c.isSettled = false ∧
    ∀ (j : ℕ) (d : Call κ), n < j → s.calls[j]? = some d → d.key ≠ k
  clear : ∀ k, s.tails k = none → ∀ (n : ℕ) (c : Call κ), s.calls[n]? = some c → c.key = k → c.isSettled = true

theorem held_empty : Held (empty : KeyedSerialTaskQueue κ) where
  behind n c m hc := by cases hc
  first n c hc := by cases hc
  started n c hc := by cases hc
  resolved n c hc := by cases hc
  tail k n hn := by cases hn
  clear k _ n c hc := by cases hc

theorem Held.before {s : KeyedSerialTaskQueue κ} (h : Held s) : ∀ {n : ℕ} {c : Call κ}, s.calls[n]? = some c →
    s.free c.previous = true → ∀ {j : ℕ} {d : Call κ}, j < n → s.calls[j]? = some d → d.key = c.key → d.isSettled = true := by
  intro n
  induction n using Nat.strong_induction_on with
  | _ n ih =>
    intro c hc hfree j d hj hd hkey
    cases hprevious : c.previous with
    | none => exact h.first n c hc hprevious j d hj hd hkey
    | some m =>
      rw [hprevious] at hfree
      obtain ⟨hm, ⟨e, he, hekey⟩, hbetween⟩ := h.behind n c m hc hprevious
      rw [free, he, Option.any_some] at hfree
      obtain ⟨hsettled, hfree'⟩ := h.resolved m e he hfree
      rcases Nat.lt_trichotomy j m with hlt | rfl | hgt
      · exact ih m hm he hfree' hlt hd (hkey.trans hekey.symm)
      · rw [hd] at he
        cases he
        exact hsettled
      · exact absurd hkey (hbetween j d hgt hj hd)

/-- **One call at a time**: a call that is past waiting has only settled calls of its key before it. -/
theorem Held.alone {s : KeyedSerialTaskQueue κ} (h : Held s) {n m : ℕ} {c d : Call κ} (hc : s.calls[n]? = some c)
    (hd : s.calls[m]? = some d) (hlt : n < m) (hkey : c.key = d.key) (hstarted : d.phase ≠ .waiting) : c.isSettled = true :=
  h.before hd (h.started m d hd hstarted) hlt hc hkey

/-- **An entry is there as long as a call of its key is not settled.** -/
theorem Held.entry {s : KeyedSerialTaskQueue κ} (h : Held s) (k : κ) :
    (s.tails k).isSome = true ↔ ∃ (n : ℕ) (c : Call κ), s.calls[n]? = some c ∧ c.key = k ∧ c.isSettled = false := by
  constructor
  · intro hsome
    obtain ⟨n, hn⟩ := Option.isSome_iff_exists.1 hsome
    obtain ⟨c, hc, hkey, hopen, -⟩ := h.tail k n hn
    exact ⟨n, c, hc, hkey, hopen⟩
  · rintro ⟨n, c, hc, hkey, hopen⟩
    by_contra hnone
    rw [Option.not_isSome_iff_eq_none] at hnone
    rw [h.clear k hnone n c hc hkey] at hopen
    cases hopen

section

variable {s : KeyedSerialTaskQueue κ} {n : ℕ} {c c' : Call κ}

theorem getElem?_put (hc : s.calls[n]? = some c) (j : ℕ) : (s.put n c').calls[j]? = if j = n then some c' else s.calls[j]? := by
  have hn : n < s.calls.length := (List.getElem?_eq_some_iff.1 hc).1
  rw [put, List.getElem?_set]
  by_cases hj : j = n
  · rw [if_pos hj.symm, if_pos hn, if_pos hj]
  · rw [if_neg (Ne.symm hj), if_neg hj]

theorem put_cases (hc : s.calls[n]? = some c) {j : ℕ} {d : Call κ} (hd : (s.put n c').calls[j]? = some d) :
    j = n ∧ d = c' ∨ j ≠ n ∧ s.calls[j]? = some d := by
  rw [getElem?_put hc] at hd
  by_cases hj : j = n
  · rw [if_pos hj] at hd
    exact .inl ⟨hj, (Option.some.inj hd).symm⟩
  · rw [if_neg hj] at hd
    exact .inr ⟨hj, hd⟩

theorem put_old (hc : s.calls[n]? = some c) (hkey : c'.key = c.key) (hprevious : c'.previous = c.previous) {j : ℕ} {d : Call κ}
    (hd : (s.put n c').calls[j]? = some d) : ∃ e, s.calls[j]? = some e ∧ e.key = d.key ∧ e.previous = d.previous := by
  rcases put_cases hc hd with ⟨rfl, rfl⟩ | ⟨-, hd⟩
  · exact ⟨c, hc, hkey.symm, hprevious.symm⟩
  · exact ⟨d, hd, rfl, rfl⟩

theorem put_keeps (hc : s.calls[n]? = some c) {P : Call κ → Prop} (hP : P c → P c') {j : ℕ} {d : Call κ}
    (hd : s.calls[j]? = some d) (hpd : P d) : ∃ e, (s.put n c').calls[j]? = some e ∧ P e := by
  rw [getElem?_put hc]
  by_cases hj : j = n
  · subst hj
    rw [hc] at hd
    cases hd
    exact ⟨c', if_pos rfl, hP hpd⟩
  · exact ⟨d, by rw [if_neg hj, hd], hpd⟩

theorem left_put (hc : s.calls[n]? = some c) (h : c'.left + 1 = c.left) : (s.put n c').left + 1 = s.left := by
  obtain ⟨hn, rfl⟩ := List.getElem?_eq_some_iff.1 hc
  have hsplit : s.calls.take n ++ s.calls[n] :: s.calls.drop (n + 1) = s.calls := by
    rw [List.cons_getElem_drop_succ, List.take_append_drop]
  unfold left put
  rw [List.set_eq_take_append_cons_drop, if_pos hn]
  conv_rhs => rw [← hsplit]
  simp only [List.map_append, List.map_cons, List.sum_append, List.sum_cons]
  omega

theorem free_put (hc : s.calls[n]? = some c) (hresolved : c.resolved = true → c'.resolved = true) {p : Option ℕ}
    (hfree : s.free p = true) : (s.put n c').free p = true := by
  cases p with
  | none => rfl
  | some m =>
    obtain ⟨d, hd, hdone⟩ := (Option.any_eq_true _ _).1 hfree
    obtain ⟨e, he, hdone'⟩ := put_keeps (P := fun d => d.resolved = true) hc hresolved hd hdone
    rw [free, he, Option.any_some]
    exact hdone'

theorem Held.put (h : Held s) (hc : s.calls[n]? = some c) (c' : Call κ) (hkey : c'.key = c.key) (hprevious : c'.previous = c.previous)
    (hsettled : c.isSettled = true → c'.isSettled = true) (hresolved : c.resolved = true → c'.resolved = true)
    (hstarted : c'.phase ≠ .waiting → s.free c.previous = true)
    (hdone : c'.resolved = true → c'.isSettled = true ∧ s.free c.previous = true) {tails : κ → Option ℕ}
    (htail : ∀ k m, tails k = some m → s.tails k = some m ∧ (m = n → c'.isSettled = false))
    (hclear : ∀ k, tails k = none → s.tails k = none ∨
      k = c.key ∧ s.tails k = some n ∧ c'.isSettled = true ∧ c'.phase ≠ .waiting) :
    Held { s.put n c' with tails := tails } where
  behind j d m hd hm := by
    obtain ⟨e, he, hekey, heprevious⟩ := put_old hc hkey hprevious hd
    obtain ⟨hlt, ⟨f, hf, hfkey⟩, hbetween⟩ := h.behind j e m he (heprevious.trans hm)
    refine ⟨hlt, put_keeps (P := fun f => f.key = d.key) hc (fun hk => hkey.trans hk) hf (hfkey.trans hekey), ?_⟩
    intro i f hmi hij hf
    rw [← hekey]
    rcases put_cases hc hf with ⟨rfl, rfl⟩ | ⟨-, hf⟩
    · rw [hkey]
      exact hbetween _ c hmi hij hc
    · exact hbetween i f hmi hij hf
  first j d hd hnone i e hij he hekey := by
    obtain ⟨f, hf, hfkey, hfprevious⟩ := put_old hc hkey hprevious hd
    have hfirst := h.first j f hf (hfprevious.trans hnone) i
    rcases put_cases hc he with ⟨rfl, rfl⟩ | ⟨-, he⟩
    · exact hsettled (hfirst c hij hc (hkey.symm.trans (hekey.trans hfkey.symm)))
    · exact hfirst e hij he (hekey.trans hfkey.symm)
  started j d hd hphase := by
    refine free_put hc hresolved ?_
    rcases put_cases hc hd with ⟨rfl, rfl⟩ | ⟨-, hd⟩
    · rw [hprevious]
      exact hstarted hphase
    · exact h.started j d hd hphase
  resolved j d hd hres := by
    rcases put_cases hc hd with ⟨rfl, rfl⟩ | ⟨-, hd⟩
    · rw [hprevious]
      exact ⟨(hdone hres).1, free_put hc hresolved (hdone hres).2⟩
    · exact ⟨(h.resolved j d hd hres).1, free_put hc hresolved (h.resolved j d hd hres).2⟩
  tail k m hm := by
    obtain ⟨hold, hopen⟩ := htail k m hm
    obtain ⟨d, hd, hdkey, hdopen, hlast⟩ := h.tail k m hold
    have hlast' : ∀ (j : ℕ) (e : Call κ), m < j → (s.put n c').calls[j]? = some e → e.key ≠ k := by
      intro j e hj he
      rcases put_cases hc he with ⟨rfl, rfl⟩ | ⟨-, he⟩
      · rw [hkey]
        exact hlast _ c hj hc
      · exact hlast j e hj he
    by_cases hmn : m = n
    · subst hmn
      rw [hc] at hd
      cases hd
      exact ⟨c', by rw [getElem?_put hc, if_pos rfl], hkey.trans hdkey, hopen rfl, hlast'⟩
    · exact ⟨d, by rw [getElem?_put hc, if_neg hmn, hd], hdkey, hdopen, hlast'⟩
  clear k hk j d hd hdkey := by
    rcases hclear k hk with hnone | ⟨rfl, hown, hended, hphase⟩
    · rcases put_cases hc hd with ⟨rfl, rfl⟩ | ⟨-, hd⟩
      · exact hsettled (h.clear k hnone _ c hc (hkey.symm.trans hdkey))
      · exact h.clear k hnone j d hd hdkey
    · -- the entry was the last call's own, and that call is settled
      rcases put_cases hc hd with ⟨rfl, rfl⟩ | ⟨hj, hd⟩
      · exact hended
      · obtain ⟨-, -, -, -, hlast⟩ := h.tail _ n hown
        rcases Nat.lt_or_gt_of_ne hj with hlt | hgt
        · exact h.before hc (hstarted hphase) hlt hd hdkey
        · exact absurd hdkey (hlast j d hgt hd)

theorem Held.run [DecidableEq κ] (h : Held s) (key : κ) :
    Held ⟨s.calls ++ [⟨key, s.tails key, .waiting, false⟩], Function.update s.tails key (some s.calls.length)⟩ := by
  have hlt : ∀ {j : ℕ} {d : Call κ}, s.calls[j]? = some d → j < s.calls.length := fun hd => (List.getElem?_eq_some_iff.1 hd).1
  have hcases : ∀ {j : ℕ} {d : Call κ}, (s.calls ++ [⟨key, s.tails key, .waiting, false⟩])[j]? = some d →
      s.calls[j]? = some d ∨ j = s.calls.length ∧ d = ⟨key, s.tails key, .waiting, false⟩ := by
    intro j d hd
    rw [List.getElem?_append] at hd
    split at hd
    · exact .inl hd
    · rename_i hj
      have hzero : j - s.calls.length = 0 := by
        by_contra hpos
        rw [List.getElem?_eq_none (by simp; omega)] at hd
        cases hd
      rw [hzero] at hd
      exact .inr ⟨by omega, (Option.some.inj hd).symm⟩
  have hold : ∀ {j : ℕ} {d : Call κ}, s.calls[j]? = some d →
      (s.calls ++ [⟨key, s.tails key, .waiting, false⟩])[j]? = some d := fun hd => by
    rw [List.getElem?_append_left (hlt hd), hd]
  have hfree : ∀ {p : Option ℕ} {t : κ → Option ℕ}, s.free p = true →
      (KeyedSerialTaskQueue.mk (s.calls ++ [⟨key, s.tails key, .waiting, false⟩]) t).free p = true := by
    intro p t hp
    cases p with
    | none => rfl
    | some m =>
      obtain ⟨d, hd, hdone⟩ := (Option.any_eq_true _ _).1 hp
      rw [free, hold hd, Option.any_some]
      exact hdone
  constructor
  · intro n c m hc hm
    rcases hcases hc with hc | ⟨rfl, rfl⟩
    · obtain ⟨hmn, ⟨d, hd, hdkey⟩, hbetween⟩ := h.behind n c m hc hm
      refine ⟨hmn, ⟨d, hold hd, hdkey⟩, fun j e hmj hjn he => ?_⟩
      rcases hcases he with he | ⟨rfl, -⟩
      · exact hbetween j e hmj hjn he
      · exact absurd (hlt hc) (by omega)
    · obtain ⟨d, hd, hdkey, -, hlast⟩ := h.tail key m hm
      refine ⟨hlt hd, ⟨d, hold hd, hdkey⟩, fun j e hmj hjn he => ?_⟩
      rcases hcases he with he | ⟨rfl, -⟩
      · exact hlast j e hmj he
      · exact absurd hjn (Nat.lt_irrefl _)
  · intro n c hc hnone j d hjn hd hkey
    rcases hcases hc with hc | ⟨rfl, rfl⟩
    · rcases hcases hd with hd | ⟨rfl, -⟩
      · exact h.first n c hc hnone j d hjn hd hkey
      · exact absurd (hlt hc) (by omega)
    · rcases hcases hd with hd | ⟨rfl, -⟩
      · exact h.clear key hnone j d hd hkey
      · exact absurd hjn (Nat.lt_irrefl _)
  · intro n c hc hphase
    rcases hcases hc with hc | ⟨-, rfl⟩
    · exact hfree (h.started n c hc hphase)
    · exact absurd rfl hphase
  · intro n c hc hres
    rcases hcases hc with hc | ⟨-, rfl⟩
    · exact ⟨(h.resolved n c hc hres).1, hfree (h.resolved n c hc hres).2⟩
    · cases hres
  · intro k n hn
    dsimp only at hn
    by_cases hk : k = key
    · subst hk
      rw [Function.update_self] at hn
      cases hn
      refine ⟨⟨k, s.tails k, .waiting, false⟩, List.getElem?_concat_length .., rfl, rfl, fun j e hj he => ?_⟩
      rcases hcases he with he | ⟨rfl, -⟩
      · exact absurd (hlt he) (by omega)
      · exact absurd hj (Nat.lt_irrefl _)
    · rw [Function.update_of_ne hk] at hn
      obtain ⟨c, hc, hckey, hopen, hlast⟩ := h.tail k n hn
      refine ⟨c, hold hc, hckey, hopen, fun j e hj he => ?_⟩
      rcases hcases he with he | ⟨-, rfl⟩
      · exact hlast j e hj he
      · exact Ne.symm hk
  · intro k hk n c hc hkey
    dsimp only at hk
    have hne : k ≠ key := by
      rintro rfl
      rw [Function.update_self] at hk
      cases hk
    rw [Function.update_of_ne hne] at hk
    rcases hcases hc with hc | ⟨-, rfl⟩
    · exact h.clear k hk n c hc hkey
    · exact absurd hkey.symm hne

theorem isSettled_iff : c.isSettled = true ↔ ∃ ok, c.phase = .settled ok := by
  unfold Call.isSettled
  split
  · rename_i ok hphase
    exact ⟨fun _ => ⟨ok, hphase⟩, fun _ => rfl⟩
  · rename_i hphase
    exact ⟨fun h => Bool.noConfusion h, fun ⟨ok, h⟩ => absurd h (hphase ok)⟩

theorem Held.advance (h : Held s) (hc : s.calls[n]? = some c) (hopen : c.isSettled = false) {phase : Phase}
    (hphase : ∀ ok, phase ≠ .settled ok) (hfree : s.free c.previous = true) : Held (s.put n { c with phase := phase }) := by
  have hunresolved : c.resolved ≠ true := fun hres => by
    rw [(h.resolved n c hc hres).1] at hopen
    cases hopen
  have hopen' : Call.isSettled { c with phase := phase } = false := by
    rw [← Bool.not_eq_true, isSettled_iff]
    rintro ⟨ok, hok⟩
    exact hphase ok hok
  refine h.put hc { c with phase := phase } rfl rfl (fun hs => ?_) id (fun _ => hfree) (fun hres => absurd hres hunresolved)
    (fun k m hm => ⟨hm, fun _ => hopen'⟩) (fun k hk => .inl hk)
  rw [hs] at hopen
  cases hopen

variable [DecidableEq κ]

/-- **Every step keeps the invariant.** -/
theorem Held.step (h : Held s) {e : Event κ} {t : KeyedSerialTaskQueue κ} {o : List ℕ} (hst : s.step e = some (t, o)) :
    Held t := by
  cases e with
  | run key =>
    cases hst
    exact h.run key
  | start n =>
    obtain ⟨c, hc, hst⟩ := Option.bind_eq_some_iff.1 hst
    obtain ⟨hguard, hst⟩ := Option.ite_none_right_eq_some.1 hst
    cases hst
    refine h.advance hc ?_ (fun ok => by rintro ⟨⟩) hguard.2
    rw [← Bool.not_eq_true, isSettled_iff, hguard.1]
    rintro ⟨ok, ⟨⟩⟩
  | returns n ok =>
    obtain ⟨c, hc, hst⟩ := Option.bind_eq_some_iff.1 hst
    obtain ⟨hguard, hst⟩ := Option.ite_none_right_eq_some.1 hst
    cases hst
    refine h.advance hc ?_ (fun ok => by rintro ⟨⟩) (h.started n c hc (by rw [hguard]; rintro ⟨⟩))
    rw [← Bool.not_eq_true, isSettled_iff, hguard]
    rintro ⟨ok, ⟨⟩⟩
  | settle n =>
    obtain ⟨c, hc, hst⟩ := Option.bind_eq_some_iff.1 hst
    split at hst
    · rename_i ok hphase
      cases hst
      have hfree : s.free c.previous = true := h.started n c hc (by rw [hphase]; rintro ⟨⟩)
      refine h.put hc { c with phase := .settled ok } rfl rfl (fun _ => rfl) id (fun _ => hfree) (fun _ => ⟨rfl, hfree⟩) (fun k m hm => ?_)
        (fun k hk => ?_)
      · split at hm
        · rename_i hown
          by_cases hk : k = c.key
          · rw [hk, Function.update_self] at hm
            cases hm
          · rw [Function.update_of_ne hk] at hm
            refine ⟨hm, fun hmn => ?_⟩
            subst hmn
            obtain ⟨d, hd, hdkey, -⟩ := h.tail k m hm
            rw [hc] at hd
            cases hd
            exact absurd hdkey.symm hk
        · rename_i hother
          refine ⟨hm, fun hmn => ?_⟩
          subst hmn
          obtain ⟨d, hd, rfl, -⟩ := h.tail k m hm
          rw [hc] at hd
          cases hd
          exact absurd hm hother
      · split at hk
        · rename_i hown
          by_cases hkey : k = c.key
          · rw [hkey]
            exact .inr ⟨rfl, hown, rfl, by rintro ⟨⟩⟩
          · rw [Function.update_of_ne hkey] at hk
            exact .inl hk
        · exact .inl hk
    · cases hst
  | resolve n =>
    obtain ⟨c, hc, hst⟩ := Option.bind_eq_some_iff.1 hst
    obtain ⟨hguard, hst⟩ := Option.ite_none_right_eq_some.1 hst
    cases hst
    exact h.put hc { c with resolved := true } rfl rfl id (fun _ => rfl) (fun _ => hguard.2.1) (fun _ => ⟨hguard.1, hguard.2.1⟩)
      (fun k m hm => ⟨hm, fun hmn => by
        subst hmn
        obtain ⟨d, hd, -, hopen, -⟩ := h.tail k m hm
        rw [hc] at hd
        cases hd
        exact hopen⟩) (fun k hk => .inl hk)

def keyOf (s : KeyedSerialTaskQueue κ) (n : ℕ) : Option κ := (s.calls[n]?).map Call.key

def Begun (s : KeyedSerialTaskQueue κ) (n : ℕ) : Prop := ∃ c, s.calls[n]? = some c ∧ c.phase ≠ .waiting

structure Ordered (starts : List ℕ) (s : KeyedSerialTaskQueue κ) : Prop where
  held : Held s
  ordered : starts.Pairwise (fun n m => s.keyOf n = s.keyOf m → n < m)
  started : ∀ n, n ∈ starts ↔ s.Begun n

omit [DecidableEq κ] in
theorem keyOf_put (hc : s.calls[n]? = some c) (c' : Call κ) (hkey : c'.key = c.key) (j : ℕ) : (s.put n c').keyOf j = s.keyOf j := by
  rw [keyOf, getElem?_put hc, keyOf]
  by_cases hj : j = n
  · rw [if_pos hj, hj, hc, Option.map_some, Option.map_some, hkey]
  · rw [if_neg hj]

omit [DecidableEq κ] in
theorem Ordered.keep {starts : List ℕ} (h : Ordered starts s) {t : KeyedSerialTaskQueue κ} (ht : Held t)
    (hkeys : ∀ n ∈ starts, t.keyOf n = s.keyOf n)
    (hbegun : ∀ n, t.Begun n ↔ s.Begun n) :
    Ordered starts t where
  held := ht
  ordered := h.ordered.imp_of_mem (fun hn hm hlt heq => hlt (by rw [← hkeys _ hn, heq, hkeys _ hm]))
  started n := (h.started n).trans (hbegun n).symm

omit [DecidableEq κ] in
theorem begun_put (hc : s.calls[n]? = some c) (c' : Call κ) (hphase : c'.phase ≠ .waiting ↔ c.phase ≠ .waiting) (j : ℕ) :
    (s.put n c').Begun j ↔ s.Begun j := by
  unfold Begun
  rw [getElem?_put hc]
  by_cases hj : j = n
  · subst hj
    rw [if_pos rfl, hc]
    constructor
    · rintro ⟨d, hd, hp⟩
      cases hd
      exact ⟨c, rfl, hphase.1 hp⟩
    · rintro ⟨d, hd, hp⟩
      cases hd
      exact ⟨c', rfl, hphase.2 hp⟩
  · rw [if_neg hj]

/-- **One step** keeps the order of the starts. -/
theorem Ordered.step {starts : List ℕ} (h : Ordered starts s) {e : Event κ} {t : KeyedSerialTaskQueue κ} {o : List ℕ}
    (hst : s.step e = some (t, o)) : Ordered (starts ++ o) t := by
  have hheld := h.held.step hst
  cases e with
  | run key =>
    cases hst
    rw [List.append_nil]
    refine h.keep hheld (fun m hm => ?_) (fun m => ?_)
    · obtain ⟨c, hc, -⟩ := (h.started m).1 hm
      have hlt := (List.getElem?_eq_some_iff.1 hc).1
      rw [keyOf, List.getElem?_append_left hlt, keyOf]
    · unfold Begun
      dsimp only
      by_cases hm : m < s.calls.length
      · rw [List.getElem?_append_left hm]
      · constructor
        · rintro ⟨c, hc, hphase⟩
          rw [List.getElem?_append_right (by omega), List.getElem?_singleton] at hc
          split at hc
          · cases hc
            exact absurd rfl hphase
          · cases hc
        · rintro ⟨c, hc, -⟩
          exact absurd (List.getElem?_eq_some_iff.1 hc).1 hm
  | start n =>
    obtain ⟨c, hc, hst⟩ := Option.bind_eq_some_iff.1 hst
    obtain ⟨hguard, hst⟩ := Option.ite_none_right_eq_some.1 hst
    cases hst
    have hkeys := keyOf_put hc { c with phase := .running } rfl
    refine ⟨hheld, ?_, fun m => ?_⟩
    · rw [List.pairwise_append]
      refine ⟨h.ordered.imp (fun hlt heq => ?_), List.pairwise_singleton _ _, fun m hm k hk heq => ?_⟩
      · rw [hkeys, hkeys] at heq
        exact hlt heq
      · -- a work that had started stands before the one that starts now
        obtain rfl := List.mem_singleton.1 hk
        rw [hkeys, hkeys] at heq
        obtain ⟨d, hd, hphase⟩ := (h.started m).1 hm
        rw [keyOf, keyOf, hc, hd, Option.map_some, Option.map_some, Option.some.injEq] at heq
        rcases Nat.lt_trichotomy m k with hlt | rfl | hgt
        · exact hlt
        · rw [hc] at hd
          cases hd
          exact absurd hguard.1 hphase
        · obtain ⟨ok, hok⟩ := isSettled_iff.1 (h.held.alone hc hd hgt heq.symm hphase)
          rw [hguard.1] at hok
          cases hok
    · rw [List.mem_append, List.mem_singleton, h.started, Begun, Begun, getElem?_put hc]
      by_cases hm : m = n
      · rw [if_pos hm]
        exact ⟨fun _ => ⟨_, rfl, by rintro ⟨⟩⟩, fun _ => .inr hm⟩
      · rw [if_neg hm]
        exact ⟨fun hor => hor.resolve_right hm, .inl⟩
  | returns n ok =>
    obtain ⟨c, hc, hst⟩ := Option.bind_eq_some_iff.1 hst
    obtain ⟨hguard, hst⟩ := Option.ite_none_right_eq_some.1 hst
    cases hst
    rw [List.append_nil]
    refine h.keep hheld (fun m _ => keyOf_put hc { c with phase := .returned ok } rfl m)
      (begun_put hc { c with phase := .returned ok } ?_)
    rw [hguard]
    exact ⟨fun _ => by rintro ⟨⟩, fun _ => by rintro ⟨⟩⟩
  | settle n =>
    obtain ⟨c, hc, hst⟩ := Option.bind_eq_some_iff.1 hst
    split at hst
    · rename_i ok hphase
      cases hst
      rw [List.append_nil]
      refine h.keep hheld (fun m _ => keyOf_put hc { c with phase := .settled ok } rfl m)
        (begun_put hc { c with phase := .settled ok } ?_)
      rw [hphase]
      exact ⟨fun _ => by rintro ⟨⟩, fun _ => by rintro ⟨⟩⟩
    · cases hst
  | resolve n =>
    obtain ⟨c, hc, hst⟩ := Option.bind_eq_some_iff.1 hst
    split at hst
    · cases hst
      rw [List.append_nil]
      exact h.keep hheld (fun m _ => keyOf_put hc { c with resolved := true } rfl m)
        (begun_put hc { c with resolved := true } Iff.rfl)
    · cases hst

theorem run_ordered {starts : List ℕ} (h : Sys.Run step (empty : KeyedSerialTaskQueue κ) starts s) : Ordered starts s :=
  h.hist Ordered ⟨held_empty, .nil, fun n => ⟨fun hn => (List.not_mem_nil hn).elim, fun ⟨_, hc, _⟩ => absurd hc (by rintro ⟨⟩)⟩⟩
    (fun _ _ _ _ _ hl _ hst => hl.step hst)

/-- **Nothing keeps a call back** once the calls of its key before it are settled. -/
theorem Held.starts (h : Held s) (hc : s.calls[n]? = some c) (hphase : c.phase = .waiting)
    (hbefore : ∀ (j : ℕ) (d : Call κ), j < n → s.calls[j]? = some d → d.key = c.key → d.isSettled = true) :
    (s.step (.start n)).isSome = true ∨
      ∃ m t, s.step (.resolve m) = some (t, []) ∧ (t.step (.start n)).isSome = true := by
  by_cases hfree : s.free c.previous = true
  · left
    rw [KeyedSerialTaskQueue.step, hc, Option.bind_some, if_pos ⟨hphase, hfree⟩]
    rfl
  right
  cases hprevious : c.previous with
  | none =>
    rw [hprevious] at hfree
    exact absurd rfl hfree
  | some m =>
    obtain ⟨hmn, ⟨d, hd, hdkey⟩, -⟩ := h.behind n c m hc hprevious
    have hsettled := hbefore m d hmn hd hdkey
    have hunresolved : d.resolved = false := by
      rw [hprevious, free, hd, Option.any_some] at hfree
      exact Bool.eq_false_iff.2 hfree
    have hfree' : s.free d.previous = true := h.started m d hd (fun hwaiting => by
      obtain ⟨ok, hok⟩ := isSettled_iff.1 hsettled
      rw [hwaiting] at hok
      cases hok)
    refine ⟨m, s.put m { d with resolved := true }, ?_, ?_⟩
    · rw [KeyedSerialTaskQueue.step, hd, Option.bind_some, if_pos ⟨hsettled, hfree', hunresolved⟩]
    · have hnow : (s.put m { d with resolved := true }).free c.previous = true := by
        rw [hprevious, free, getElem?_put hd, if_pos rfl]
        rfl
      rw [KeyedSerialTaskQueue.step, getElem?_put hd, if_neg (Nat.ne_of_gt hmn), hc, Option.bind_some, if_pos ⟨hphase, hnow⟩]
      rfl

/-- **Keyed work is serial and cleaned up**: a key's works run one at a time in the order of their calls, and its entry goes
with the last. -/
theorem runs_serial {starts : List ℕ} (h : Sys.Run step (empty : KeyedSerialTaskQueue κ) starts s) :
    (∀ (n m : ℕ) (c d : Call κ), s.calls[n]? = some c → s.calls[m]? = some d → c.key = d.key → c.phase = .running →
      d.phase = .running → n = m) ∧
    starts.Pairwise (fun n m => s.keyOf n = s.keyOf m → n < m) ∧
    (∀ (n m : ℕ) (c d : Call κ), s.calls[n]? = some c → s.calls[m]? = some d → n < m → c.key = d.key → m ∈ starts →
      n ∈ starts ∧ c.isSettled = true) ∧
    (∀ (n : ℕ) (c : Call κ), s.calls[n]? = some c → n ∉ starts →
      (∀ (j : ℕ) (d : Call κ), j < n → s.calls[j]? = some d → d.key = c.key → d.isSettled = true) →
      (s.step (.start n)).isSome = true ∨ ∃ m t, s.step (.resolve m) = some (t, []) ∧ (t.step (.start n)).isSome = true) ∧
    ∀ k, (s.tails k).isSome = true ↔ ∃ (n : ℕ) (c : Call κ), s.calls[n]? = some c ∧ c.key = k ∧ c.isSettled = false := by
  have hordered := run_ordered h
  have hheld := hordered.held
  have hrunning : ∀ {n m : ℕ} {c d : Call κ}, s.calls[n]? = some c → s.calls[m]? = some d → c.key = d.key →
      c.phase = .running → d.phase = .running → ¬n < m := by
    intro n m c d hc hd hkey hcrunning hdrunning hlt
    obtain ⟨ok, hok⟩ := isSettled_iff.1 (hheld.alone hc hd hlt hkey (by rw [hdrunning]; rintro ⟨⟩))
    rw [hcrunning] at hok
    cases hok
  refine ⟨fun n m c d hc hd hkey hcr hdr => ?_, hordered.ordered, fun n m c d hc hd hlt hkey hm => ?_,
    fun n c hc hn hbefore => ?_, hheld.entry⟩
  · have hnot := hrunning hc hd hkey hcr hdr
    have hnot' := hrunning hd hc hkey.symm hdr hcr
    omega
  · obtain ⟨e, he, hphase⟩ := (hordered.started m).1 hm
    rw [hd] at he
    obtain rfl := Option.some.inj he
    have hsettled := hheld.alone hc hd hlt hkey hphase
    refine ⟨(hordered.started n).2 ⟨c, hc, fun hwaiting => ?_⟩, hsettled⟩
    obtain ⟨ok, hok⟩ := isSettled_iff.1 hsettled
    rw [hwaiting] at hok
    cases hok
  · refine hheld.starts hc ?_ hbefore
    by_contra hphase
    exact hn ((hordered.started n).2 ⟨c, hc, hphase⟩)

/-- The first open call of a key is never kept back. -/
theorem Held.first_open (h : Held s) (hc : s.calls[n]? = some c) (hopen : c.resolved = false)
    (hbefore : ∀ m < n, ∀ d, s.calls[m]? = some d → d.key = c.key → d.resolved = true) :
    ∃ e ∈ [.start n, .returns n true, .settle n, .resolve n], (s.step e).isSome = true := by
  have hfree : s.free c.previous = true := by
    cases hprevious : c.previous with
    | none => rfl
    | some m =>
      obtain ⟨hmn, ⟨d, hd, hkey⟩, -⟩ := h.behind n c m hc hprevious
      rw [free, hd]
      exact hbefore m hmn d hd hkey
  cases hphase : c.phase with
  | waiting => exact ⟨.start n, by simp [KeyedSerialTaskQueue.step, hc, hphase, hfree]⟩
  | running => exact ⟨.returns n true, by simp [KeyedSerialTaskQueue.step, hc, hphase]⟩
  | returned ok => exact ⟨.settle n, by simp [KeyedSerialTaskQueue.step, hc, hphase]⟩
  | settled ok => exact ⟨.resolve n, by simp [KeyedSerialTaskQueue.step, hc, hfree, hopen, isSettled_iff.2 ⟨ok, hphase⟩]⟩

/-- **A step leaves one less**, a new call apart. -/
theorem left_step {e : Event κ} {t : KeyedSerialTaskQueue κ} {o : List ℕ} (hst : s.step e = some (t, o)) (he : ∀ key, e ≠ .run key) :
    t.left + 1 = s.left := by
  cases e with
  | run key => exact absurd rfl (he key)
  | start n | returns n ok | settle n | resolve n =>
    obtain ⟨c, hc, hst⟩ := Option.bind_eq_some_iff.1 hst
    split at hst <;> cases hst
    rename_i hguard
    exact left_put hc (by grind [Call.left])

end

theorem runs_serial_rejected : ∃ s : KeyedSerialTaskQueue Bool, Sys.Run step empty [0, 2, 1] s ∧
    [0, 2, 1].Pairwise (fun n m => s.keyOf n = s.keyOf m → n < m) := by
  obtain ⟨s, hrun⟩ := Sys.replay_obs step (empty : KeyedSerialTaskQueue Bool)
    [.run true, .run true, .run false, .start 0, .start 2, .returns 0 false, .settle 0, .resolve 0, .start 1] [0, 2, 1] rfl
  exact ⟨s, hrun, (runs_serial hrun).2.1⟩

/-- **Every key goes on by itself**: without new calls every order of the events is as long, an open call waits for its
key only, and
no entry is left. -/
theorem keys_go_on [DecidableEq κ] {s t : KeyedSerialTaskQueue κ} {starts o : List ℕ} (h : Sys.Run step empty starts s)
    (es : List (Event κ)) (hes : Sys.replay step s es = some (t, o)) (hnew : ∀ key, .run key ∉ es) :
    es.length + t.left = s.left ∧
    (∀ c ∈ t.calls, c.resolved = false → ∃ n, t.keyOf n = some c.key ∧
      ∃ e ∈ [.start n, .returns n true, .settle n, .resolve n], (t.step e).isSome = true) ∧
    (t.left = 0 → t.tails = fun _ => none) := by
  have hheld := (run_ordered (h.append (Sys.replay_run es s t o hes))).held
  refine ⟨?_, fun c hc hopen => ?_, fun hzero => ?_⟩
  · clear h hheld
    induction es generalizing s o with
    | nil =>
      cases hes
      exact Nat.zero_add _
    | cons e es ih =>
      rw [Sys.replay] at hes
      split at hes
      · cases hes
      · rename_i hst
        obtain ⟨_, hrest, heq⟩ := Option.map_eq_some_iff.1 hes
        cases heq
        have hleft := left_step hst (fun key he => hnew key (he ▸ List.mem_cons_self))
        have hrest := ih hrest (fun key hmem => hnew key (List.mem_cons_of_mem e hmem))
        rw [List.length_cons]
        omega
  · obtain ⟨n, hn⟩ := List.mem_iff_getElem?.1 hc
    induction n using Nat.strong_induction_on generalizing c with
    | _ n ih =>
      by_cases hall : ∀ m < n, ∀ d, t.calls[m]? = some d → d.key = c.key → d.resolved = true
      · exact ⟨n, by rw [keyOf, hn]; rfl, hheld.first_open hn hopen hall⟩
      · push Not at hall
        obtain ⟨m, hlt, d, hd, hkey, hres⟩ := hall
        rw [← hkey]
        exact ih m hlt d (List.mem_of_getElem? hd) (Bool.eq_false_iff.2 hres) hd
  · funext k
    by_contra hsome
    obtain ⟨n, c, hc, -, hopen⟩ := (hheld.entry k).1 (Option.isSome_iff_ne_none.2 hsome)
    have hnone := List.sum_eq_zero_iff_forall_eq_nat.1 hzero c.left (List.mem_map_of_mem (List.mem_of_getElem? hc))
    cases hres : c.resolved with
    | true => rw [(hheld.resolved n c hc hres).1] at hopen; cases hopen
    | false => rw [Call.left, hres] at hnone; cases (Nat.add_eq_zero_iff.1 hnone).2

theorem keys_go_on_started : ∃ t : KeyedSerialTaskQueue Bool, 1 + t.left = 4 ∧ (t.left = 0 → t.tails = fun _ => none) := by
  have hrun := Sys.Run.single (show step (empty : KeyedSerialTaskQueue Bool) (.run true) = some (_, _) from rfl)
  have hgo := keys_go_on hrun [.start 0] rfl (by simp)
  exact ⟨_, hgo.1, hgo.2.2⟩

end KeyedSerialTaskQueue

end Wollipog.Serial

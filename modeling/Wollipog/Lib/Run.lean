import Mathlib.Data.List.Count
import Mathlib.Data.List.Infix
/-!
# Run — step functions that emit observations, and what whole runs keep

`step s e` is `none` when the event is not enabled, and otherwise the next state with what an observer sees. `RunOn C`
are the runs whose every step meets the condition `C`; `Run` has none.
-/
namespace Sys

variable {σ ε ο : Type*}

/-- The runs from `s` with the observations in order, every step meeting `C`. -/
inductive RunOn (C : List ο → σ → ε → Prop) (step : σ → ε → Option (σ × List ο)) (s : σ) : List ο → σ → Prop
  | nil : RunOn C step s [] s
  | snoc {l : List ο} {t : σ} {e : ε} {u : σ} {o : List ο} :
      RunOn C step s l t → C l t e → step t e = some (u, o) → RunOn C step s (l ++ o) u

abbrev Run (step : σ → ε → Option (σ × List ο)) : σ → List ο → σ → Prop := RunOn (fun _ _ _ => True) step

def replay (step : σ → ε → Option (σ × List ο)) : σ → List ε → Option (σ × List ο)
  | s, [] => some (s, [])
  | s, e :: es =>
    match step s e with
    | none => none
    | some (t, o) => (replay step t es).map (fun r => (r.1, o ++ r.2))

variable {C : List ο → σ → ε → Prop} {step : σ → ε → Option (σ × List ο)}

/-- **A state invariant**: what every step keeps, every run keeps. -/
theorem RunOn.inv (P : σ → Prop) (hstep : ∀ s e t o, step s e = some (t, o) → P s → P t) {s t : σ} {l : List ο}
    (h : RunOn C step s l t) (hs : P s) : P t := by
  induction h with
  | nil => exact hs
  | snoc _ _ hst ih => exact hstep _ _ _ _ hst ih

/-- **An invariant of history and state**, each step's condition at hand. -/
theorem RunOn.hist (H : List ο → σ → Prop) {s : σ} (h0 : H [] s)
    (hstep : ∀ l t e u o, H l t → C l t e → step t e = some (u, o) → H (l ++ o) u) {l : List ο} {t : σ}
    (h : RunOn C step s l t) : H l t := by
  induction h with
  | nil => exact h0
  | snoc _ hC hst ih => exact hstep _ _ _ _ _ ih hC hst

theorem RunOn.run {s t : σ} {l : List ο} (h : RunOn C step s l t) : Run step s l t := by
  induction h with
  | nil => exact .nil
  | snoc _ _ hst ih => exact .snoc ih trivial hst

theorem Run.meeting {s t : σ} {l : List ο} (h : Run step s l t) (hC : ∀ k w e, k <+: l → C k w e) : RunOn C step s l t := by
  induction h with
  | nil => exact .nil
  | @snoc l t e u o _ _ hst ih =>
    have hprefix : l <+: l ++ o := List.prefix_append l o
    exact .snoc (ih (fun k w e hk => hC k w e (hk.trans hprefix))) (hC l t e hprefix) hst

theorem Run.append {s t u : σ} {l k : List ο} (h : Run step s l t) (h' : Run step t k u) : Run step s (l ++ k) u := by
  induction h' with
  | nil => rw [List.append_nil]; exact h
  | snoc _ _ hst ih => rw [← List.append_assoc]; exact .snoc ih trivial hst

theorem Run.single {s t : σ} {e : ε} {o : List ο} (h : step s e = some (t, o)) : Run step s o t := by
  have h0 : Run step s [] s := .nil
  have := h0.snoc trivial h
  rwa [List.nil_append] at this

/-- **A replay is a run.** -/
theorem replay_run : ∀ (es : List ε) (s t : σ) (l : List ο), replay step s es = some (t, l) → Run step s l t
  | [], s, t, l, h => by
    simp only [replay, Option.some.injEq, Prod.mk.injEq] at h
    obtain ⟨rfl, rfl⟩ := h
    exact .nil
  | e :: es, s, t, l, h => by
    rw [replay] at h
    cases hs : step s e with
    | none => rw [hs] at h; cases h
    | some r =>
      obtain ⟨m, o⟩ := r
      rw [hs] at h
      obtain ⟨⟨t', k⟩, hr, heq⟩ := Option.map_eq_some_iff.1 h
      cases heq
      exact (Run.single hs).append (replay_run es m t' k hr)

theorem replay_obs (step : σ → ε → Option (σ × List ο)) (s : σ) (es : List ε) (l : List ο)
    (h : (replay step s es).map Prod.snd = some l) : ∃ t, Run step s l t := by
  obtain ⟨⟨t, k⟩, hr, rfl⟩ := Option.map_eq_some_iff.1 h
  exact ⟨t, replay_run es s t k hr⟩

def replayOn (check : σ → ε → Bool) (step : σ → ε → Option (σ × List ο)) : σ → List ε → Option (σ × List ο)
  | s, [] => some (s, [])
  | s, e :: es =>
    if check s e then
      match step s e with
      | none => none
      | some (t, o) => (replayOn check step t es).map (fun r => (r.1, o ++ r.2))
    else none

/-- **A checked replay is a run under what the check establishes.** -/
theorem replayOn_runOn {D : σ → ε → Prop} {check : σ → ε → Bool} (hD : ∀ s e, check s e = true → D s e) {r : σ}
    (es : List ε) : ∀ (s t : σ) (k l : List ο), RunOn (fun _ => D) step r k s → replayOn check step s es = some (t, l) →
      RunOn (fun _ => D) step r (k ++ l) t := by
  induction es with
  | nil =>
    intro s t k l hrun h
    cases h
    rw [List.append_nil]
    exact hrun
  | cons e es ih =>
    intro s t k l hrun h
    rw [replayOn] at h
    split at h
    · rename_i hcheck
      split at h
      · cases h
      · rename_i u o hst
        obtain ⟨⟨t', m⟩, hr, heq⟩ := Option.map_eq_some_iff.1 h
        cases heq
        have hnext := ih u _ (k ++ o) m (hrun.snoc (hD s e hcheck) hst) hr
        rwa [List.append_assoc] at hnext
    · cases h

/-- **The latch**: an observation made only before a stable condition holds, and making it hold, is made once. -/
theorem RunOn.countP_le_one (p : ο → Bool) (I L : σ → Prop) {s : σ} (h0 : I s)
    (keep : ∀ t e u o, step t e = some (u, o) → I t → I u)
    (stable : ∀ t e u o, step t e = some (u, o) → I t → L t → L u)
    (fire : ∀ t e u o, step t e = some (u, o) → I t → 0 < o.countP p → o.countP p = 1 ∧ ¬ L t ∧ L u)
    {l : List ο} {t : σ} (h : RunOn C step s l t) : l.countP p ≤ 1 := by
  have H : I t ∧ l.countP p ≤ 1 ∧ (0 < l.countP p → L t) := by
    refine RunOn.hist (fun l t => I t ∧ l.countP p ≤ 1 ∧ (0 < l.countP p → L t)) ⟨h0, by simp⟩
      (fun l t e u o ⟨hI, hle, hL⟩ _ hst => ⟨keep t e u o hst hI, ?_⟩) h
    rw [List.countP_append]
    by_cases ho : 0 < o.countP p
    · obtain ⟨h1, hn, hu⟩ := fire t e u o hst hI ho
      have : ¬ 0 < l.countP p := fun hpos => hn (hL hpos)
      exact ⟨by omega, fun _ => hu⟩
    · exact ⟨by omega, fun hpos => stable t e u o hst hI (hL (by omega))⟩
  exact H.2.1

/-- **The witness rule**: what the step of an observation left and every later step keeps still holds. -/
theorem RunOn.of_mem (L : σ → Prop) {x : ο} {s : σ} (stable : ∀ t e u o, step t e = some (u, o) → L t → L u)
    (fire : ∀ t e u o, step t e = some (u, o) → x ∈ o → L u) {l : List ο} {t : σ} (h : RunOn C step s l t)
    (hx : x ∈ l) : L t := by
  have H : x ∈ l → L t := by
    refine RunOn.hist (fun l t => x ∈ l → L t) (by simp) (fun l t e u o ih _ hst hmem => ?_) h
    rcases List.mem_append.1 hmem with hl | ho
    · exact stable t e u o hst (ih hl)
    · exact fire t e u o hst ho
  exact H hx

/-- Every observation of `o` meets `P` with the history it was made after, `l` and what stands before it in `o`. -/
def Told (P : List ο → ο → Prop) (l o : List ο) : Prop := ∀ pre x post, o = pre ++ x :: post → P (l ++ pre) x

theorem told_nil (P : List ο → ο → Prop) (l : List ο) : Told P l [] := by
  intro pre x post h
  exact absurd h.symm (List.append_ne_nil_of_right_ne_nil pre (List.cons_ne_nil x post))

theorem told_append {P : List ο → ο → Prop} {l a b : List ο} (ha : Told P l a) (hb : Told P (l ++ a) b) : Told P l (a ++ b) := by
  intro pre x post h
  rcases List.append_eq_append_iff.1 h with ⟨c, rfl, hc⟩ | ⟨c, hac, hc⟩
  · rw [← List.append_assoc]
    exact hb c x post hc
  · cases c with
    | nil =>
      rw [List.append_nil] at hac
      subst hac
      have hfirst := hb [] x post hc.symm
      rw [List.append_nil] at hfirst
      exact hfirst
    | cons y c =>
      rw [List.cons_append, List.cons.injEq] at hc
      obtain ⟨rfl, -⟩ := hc
      exact ha pre x c hac

theorem told_single {P : List ο → ο → Prop} {l : List ο} {x : ο} (h : P l x) : Told P l [x] := by
  intro pre y post hy
  cases pre with
  | nil =>
    rw [List.nil_append, List.cons.injEq] at hy
    obtain ⟨rfl, -⟩ := hy
    rw [List.append_nil]
    exact h
  | cons z pre =>
    rw [List.cons_append, List.cons.injEq] at hy
    exact absurd hy.2.symm (List.append_ne_nil_of_right_ne_nil pre (List.cons_ne_nil y post))

/-- **What every step tells, every run tells.** -/
theorem RunOn.told (P : List ο → ο → Prop) (H : List ο → σ → Prop) {s : σ} (h0 : H [] s)
    (hstep : ∀ l t e u o, H l t → C l t e → step t e = some (u, o) → H (l ++ o) u ∧ Told P l o) {l : List ο} {t : σ}
    (h : RunOn C step s l t) : H l t ∧ Told P [] l := by
  refine h.hist (fun l t => H l t ∧ Told P [] l) ⟨h0, told_nil P []⟩ ?_
  rintro l t e u o ⟨hH, htold⟩ hC hst
  obtain ⟨hH', hnew⟩ := hstep l t e u o hH hC hst
  exact ⟨hH', told_append htold hnew⟩

inductive Trace (R : σ → ο → σ → Prop) (s : σ) : List ο → σ → Prop
  | nil : Trace R s [] s
  | snoc {l : List ο} {t : σ} {a : ο} {u : σ} : Trace R s l t → R t a u → Trace R s (l ++ [a]) u

variable {R : σ → ο → σ → Prop}

theorem Trace.append {s t u : σ} {l k : List ο} (h : Trace R s l t) (h' : Trace R t k u) : Trace R s (l ++ k) u := by
  induction h' with
  | nil => rw [List.append_nil]; exact h
  | snoc _ hst ih => rw [← List.append_assoc]; exact .snoc ih hst

theorem Trace.single {s t : σ} {a : ο} (h : R s a t) : Trace R s [a] t := by
  have h0 : Trace R s [] s := .nil
  have h1 := h0.snoc h
  rwa [List.nil_append] at h1

theorem Trace.hist (H : List ο → σ → Prop) {s : σ} (h0 : H [] s)
    (hstep : ∀ l t a u, H l t → R t a u → H (l ++ [a]) u) {l : List ο} {t : σ} (h : Trace R s l t) : H l t := by
  induction h with
  | nil => exact h0
  | snoc _ hst ih => exact hstep _ _ _ _ ih hst

/-- **Refinement**: when every step shows what its image under `abs` may show, the run maps to a trace. -/
theorem RunOn.refines {α β : Type*} {R : α → β → α → Prop} (abs : List ο → σ → α) (obs : ο → β)
    (H : List ο → σ → Prop) {s : σ} (h0 : H [] s)
    (keep : ∀ l t e u o, H l t → C l t e → step t e = some (u, o) → H (l ++ o) u)
    (sim : ∀ l t e u o, H l t → C l t e → step t e = some (u, o) → Trace R (abs l t) (o.map obs) (abs (l ++ o) u))
    {l : List ο} {t : σ} (h : RunOn C step s l t) : H l t ∧ Trace R (abs [] s) (l.map obs) (abs l t) := by
  induction h with
  | nil => exact ⟨h0, .nil⟩
  | snoc _ hC hst ih =>
    obtain ⟨hH, htr⟩ := ih
    rw [List.map_append]
    exact ⟨keep _ _ _ _ _ hH hC hst, htr.append (sim _ _ _ _ _ hH hC hst)⟩

/-- **The until rule**: `x` brings about `L`, which lasts until some `brk`; so between an `x` and a later `z` lies a
`brk`. -/
theorem Trace.until_break (I : List ο → σ → Prop) (L : σ → Prop) (x : List ο → ο → Prop) (z brk : ο → Prop) {s : σ}
    (h0 : I [] s) (keep : ∀ l t a u, I l t → R t a u → I (l ++ [a]) u)
    (fire : ∀ l t a u, I l t → R t a u → x l a → L u)
    (stable : ∀ l t a u, I l t → R t a u → L t → brk a ∨ L u)
    (quiet : ∀ l t a u, I l t → R t a u → L t → ¬ z a) {l : List ο} {t : σ} (h : Trace R s l t) :
    ∀ l₁ l₂ l₃ a b, l = l₁ ++ a :: (l₂ ++ b :: l₃) → x l₁ a → z b → ∃ y ∈ l₂, brk y := by
  have H : I l t ∧ (∀ l₁ a l₂, l = l₁ ++ a :: l₂ → x l₁ a → (∃ y ∈ l₂, brk y) ∨ L t) ∧
      ∀ l₁ l₂ l₃ a b, l = l₁ ++ a :: (l₂ ++ b :: l₃) → x l₁ a → z b → ∃ y ∈ l₂, brk y := by
    induction h with
    | nil => exact ⟨h0, by simp, by simp⟩
    | @snoc l t e u _ hst ih =>
      obtain ⟨hI, hL, hz⟩ := ih
      have hafter : ∀ l₁ a l₂, l = l₁ ++ a :: l₂ → x l₁ a → (∃ y ∈ l₂, brk y) ∨ (brk e ∨ L u) := by
        intro l₁ a l₂ hl hx
        rcases hL l₁ a l₂ hl hx with hb | hLt
        · exact .inl hb
        · exact .inr (stable l t e u hI hst hLt)
      refine ⟨keep l t e u hI hst, fun l₁ a l₂ hl hx => ?_, fun l₁ l₂ l₃ a b hl hx hb => ?_⟩
      · rcases List.eq_nil_or_concat l₂ with rfl | ⟨m, y, rfl⟩
        · obtain ⟨rfl, hae⟩ := List.append_inj' hl rfl
          cases hae
          exact .inr (fire l t e u hI hst hx)
        · have hl' : l ++ [e] = (l₁ ++ a :: m) ++ [y] := by rw [hl]; simp
          obtain ⟨hlm, hey⟩ := List.append_inj' hl' rfl
          cases hey
          rcases hafter l₁ a m hlm hx with ⟨w, hw, hbw⟩ | hbe | hLu
          · exact .inl ⟨w, by simp [hw], hbw⟩
          · exact .inl ⟨e, by simp, hbe⟩
          · exact .inr hLu
      · rcases List.eq_nil_or_concat l₃ with rfl | ⟨m, y, rfl⟩
        · have hl' : l ++ [e] = (l₁ ++ a :: l₂) ++ [b] := by rw [hl]; simp
          obtain ⟨hlm, heb⟩ := List.append_inj' hl' rfl
          cases heb
          rcases hL l₁ a l₂ hlm hx with hbr | hLt
          · exact hbr
          · exact absurd hb (quiet l t e u hI hst hLt)
        · have hl' : l ++ [e] = (l₁ ++ a :: (l₂ ++ b :: m)) ++ [y] := by rw [hl]; simp
          obtain ⟨hlm, -⟩ := List.append_inj' hl' rfl
          exact hz l₁ l₂ m a b hlm hx hb
  exact H.2.2

end Sys

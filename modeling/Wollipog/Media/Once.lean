import Wollipog.Lib.Run
import Wollipog.Media.Stops
/-!
# Once — a media dispatch is fenced at most once

Over every run of calls, replays and crashes. Each promise is one durable fact that no call undoes (`InState`,
`StopTaken`), with the one step that makes it.
-/
namespace Wollipog
namespace Media

open Sys (Run RunOn)

def Obs.claims (k : Key) : Obs → Bool
  | .claimAnswered v answer => answer && v.key == k
  | _ => false

def Obs.receipts (k : Key) : Obs → Bool
  | .neverDispatched v _ => v.key == k
  | _ => false

def Obs.signals (k : Key) : Obs → Bool
  | .signalled v => v.key == k
  | _ => false

variable {sha256 : String → String}

theorem commit_some {db db' : Db} {v : StopRequest} (h : commit sha256 db v = some db') :
    Touch db db' ∧ ¬ StopTaken db v.key ∧ StopTaken db' v.key := by
  unfold commit at h
  rcases claimStop_cases db v.toFenceIdentity v.operationId with hc | ⟨row, hrow, hn, hc⟩
  · rw [hc] at h; cases h
  · rw [hc] at h
    simp only at h
    split at h
    · cases h
      refine ⟨.stop _ row v.operationId hrow hn rfl, ?_, ?_⟩
      · rintro ⟨row', hrow', hop⟩
        rw [hrow] at hrow'
        cases hrow'
        exact hop hn
      · exact ⟨{ row with stopOperationId := some v.operationId }, by simp, by simp⟩
    · cases h

theorem record_fences (db : Db) (v : StopRequest) : (record sha256 db v).fences = db.fences := by
  unfold record
  split
  · split <;> rfl
  · rfl

/-- **What a step can do**: nothing durable, commit one intent, or signal once for a committed one. -/
inductive Moves (w u : World) (o : List Obs) : Prop
  | quiet (hd : Touch w.db u.db) (ho : ∀ k, o.countP (Obs.signals k) = 0)
      (hc : ∀ q v h, u.calls q = some (.committed v h) → w.calls q = some (.committed v h))
  | commits (p : Nat) (v : StopRequest) (h : Nat) (hd : Touch w.db u.db) (ho : ∀ k, o.countP (Obs.signals k) = 0)
      (h0 : ¬ StopTaken w.db v.key) (h1 : StopTaken u.db v.key)
      (hc : ∀ q, u.calls q = if q = p then some (.committed v h) else w.calls q)
  | signals (p : Nat) (v : StopRequest) (h : Nat) (hd : u.db = w.db)
      (ho : ∀ k, o.countP (Obs.signals k) = if v.key = k then 1 else 0) (h0 : w.calls p = some (.committed v h))
      (hc : ∀ q v' h', u.calls q = some (.committed v' h') → q ≠ p ∧ w.calls q = some (.committed v' h'))

variable {w u : World}

variable {k : Key} {e : Event} {l o : List Obs} {v : FenceIdentity} {r : NeverDispatchedFence}

theorem quiet_of_calls (p : Nat) (c : Option Call) (hd : Touch w.db u.db)
    (ho : ∀ k, o.countP (Obs.signals k) = 0) (hc : ∀ q, u.calls q = if q = p then c else w.calls q)
    (hn : ∀ v h, c ≠ some (.committed v h)) : Moves w u o := by
  refine .quiet hd ho (fun q v h hq => ?_)
  rw [hc q] at hq
  split at hq
  · exact absurd hq (hn v h)
  · exact hq

theorem step_moves (hst : step sha256 w e = some (u, o)) : Moves w u o := by
  cases e with
  | claim p v =>
    cases hst
    exact .quiet (claim_touch w.db v) (fun k => rfl) (fun _ _ _ h => h)
  | claimCrash p v =>
    cases hst
    exact quiet_of_calls p none (claim_touch w.db v) (fun k => rfl) (fun q => World.setCall_calls _ _ _ _) (by simp)
  | markNeverDispatched p v =>
    cases hst
    refine .quiet (cancel_touch sha256 w.db v) (fun k => ?_) (fun _ _ _ h => h)
    split <;> rfl
  | markCrash p v =>
    cases hst
    exact quiet_of_calls p none (cancel_touch sha256 w.db v) (fun k => rfl) (fun q => World.setCall_calls _ _ _ _)
      (by simp)
  | stop p isTransaction ports v =>
    simp only [step] at hst
    split at hst
    · cases hst
    · split at hst
      · cases hst
        exact .quiet (.same rfl) (fun k => rfl) (fun _ _ _ h => h)
      · rename_i call hcall
        cases hst
        refine quiet_of_calls p (some call) (.same rfl) (fun k => rfl) (fun q => World.setCall_calls _ _ _ _) ?_
        rintro v' h' heq
        cases heq
        -- the reads end in a checked call, never in a committed one
        simp only [checks] at hcall
        repeat' split at hcall
        all_goals simp at hcall
  | stopCommit p =>
    simp only [step] at hst
    split at hst
    · rename_i v handle hp
      split at hst
      · rename_i db hdb
        cases hst
        obtain ⟨ht, h0, h1⟩ := commit_some hdb
        exact .commits p v handle ht (fun k => rfl) h0 h1 (fun q => World.setCall_calls _ _ _ _)
      · cases hst
        exact quiet_of_calls p none (.same rfl) (fun k => rfl) (fun q => World.setCall_calls _ _ _ _) (by simp)
    · cases hst
  | stopSignal p ports throws =>
    simp only [step] at hst
    split at hst
    · rename_i v handle hp
      have hcalls : ∀ (c : Option Call), (∀ v h, c ≠ some (.committed v h)) → ∀ q v' h',
          (w.setCall p c).calls q = some (.committed v' h') → q ≠ p ∧ w.calls q = some (.committed v' h') := by
        intro c hn q v' h' hq
        rw [World.setCall_calls] at hq
        by_cases hqp : q = p
        · rw [if_pos hqp] at hq; exact absurd hq (hn v' h')
        · rw [if_neg hqp] at hq; exact ⟨hqp, hq⟩
      have hcount : ∀ k, [Obs.signalled v].countP (Obs.signals k) = if v.key = k then 1 else 0 := fun k => by
        by_cases hk : v.key = k <;> simp [Obs.signals, hk]
      split at hst
      · split at hst
        · cases hst
          exact .signals p v handle rfl (fun k => by rw [← hcount k]; rfl) hp (hcalls _ (by simp))
        · cases hst
          exact .signals p v handle rfl hcount hp (hcalls _ (by simp))
      · cases hst
        exact quiet_of_calls p none (.same rfl) (fun k => rfl) (fun q => World.setCall_calls _ _ _ _) (by simp)
    · cases hst
  | stopRecord p =>
    simp only [step] at hst
    split at hst
    · rename_i v hp
      cases hst
      exact quiet_of_calls p none (.same (record_fences _ _)) (fun k => rfl) (fun q => World.setCall_calls _ _ _ _)
        (by simp)
    · cases hst
  | stopThrows p =>
    simp only [step] at hst
    split at hst
    all_goals cases hst
    all_goals exact quiet_of_calls p none (.same rfl) (fun k => rfl) (fun q => World.setCall_calls _ _ _ _) (by simp)
  | readback p v =>
    cases hst
    exact .quiet (.same rfl) (fun k => rfl) (fun _ _ _ h => h)
  | crash p =>
    cases hst
    exact quiet_of_calls p none (.same rfl) (fun k => rfl) (fun q => World.setCall_calls _ _ _ _) (by simp)

theorem Moves.touch (h : Moves w u o) : Touch w.db u.db := by
  cases h with
  | quiet hd => exact hd
  | commits _ _ _ hd => exact hd
  | signals _ _ _ hd => exact .same (by rw [hd])

theorem step_claims (hst : step sha256 w e = some (u, o)) (hpos : 0 < o.countP (Obs.claims k)) :
    o.countP (Obs.claims k) = 1 ∧ w.db.fences k = none ∧ InState u.db k .claimed := by
  cases e with
  | claim p v =>
    cases hst
    rcases claim_cases w.db v with hc | ⟨h0, hc⟩
    · rw [hc] at hpos; simp [Obs.claims] at hpos
    · rw [hc] at hpos ⊢
      have hk : v.key = k := by by_contra hk; simp [Obs.claims, hk] at hpos
      subst hk
      refine ⟨by simp [Obs.claims], h0, ?_⟩
      exact ⟨⟨canonicalIdentity v, .claimed, none⟩, by simp, rfl⟩
  | markNeverDispatched p v =>
    simp only [step, Option.some.injEq, Prod.mk.injEq] at hst
    obtain ⟨-, rfl⟩ := hst
    split at hpos <;> simp [Obs.claims] at hpos
  | stop p isTransaction ports v =>
    simp only [step] at hst
    repeat' split at hst
    all_goals cases hst
    all_goals simp [Obs.claims] at hpos
  | stopCommit p | stopSignal p ports throws | stopRecord p | stopThrows p =>
    simp only [step] at hst
    repeat' split at hst
    all_goals cases hst
    all_goals simp [Obs.claims] at hpos
  | claimCrash p v | markCrash p v | readback p v | crash p =>
    simp only [step, Option.some.injEq, Prod.mk.injEq] at hst
    obtain ⟨-, rfl⟩ := hst
    simp [Obs.claims] at hpos

theorem step_receipts
    (hst : step sha256 w e = some (u, o)) (hmem : Obs.neverDispatched v r ∈ o) : InState u.db v.key .cancelled := by
  cases e with
  | markNeverDispatched p v' =>
    cases hst
    rcases cancel_cases sha256 w.db v' with ⟨h1, -⟩ | ⟨row, hrow, hstate, hdb⟩ | ⟨h0, hdb⟩
    · rw [h1] at hmem; simp at hmem
    · split at hmem
      · simp only [List.mem_singleton, Obs.neverDispatched.injEq] at hmem
        obtain ⟨rfl, -⟩ := hmem
        exact ⟨row, by simp only [hdb]; exact hrow, hstate⟩
      · simp at hmem
    · split at hmem
      · simp only [List.mem_singleton, Obs.neverDispatched.injEq] at hmem
        obtain ⟨rfl, -⟩ := hmem
        exact ⟨⟨canonicalIdentity v, .cancelled, none⟩, by simp [hdb], rfl⟩
      · simp at hmem
  | stop p isTransaction ports v' =>
    simp only [step] at hst
    repeat' split at hst
    all_goals cases hst
    all_goals simp at hmem
  | stopCommit p | stopSignal p ports throws | stopRecord p | stopThrows p =>
    simp only [step] at hst
    repeat' split at hst
    all_goals cases hst
    all_goals simp at hmem
  | claim p v' | claimCrash p v' | markCrash p v' | readback p v' | crash p =>
    simp only [step, Option.some.injEq, Prod.mk.injEq] at hst
    obtain ⟨-, rfl⟩ := hst
    simp at hmem

/-- **A generation is claimed once.** -/
theorem claims_once (k : Key) (h : Run (step sha256) w l u) : l.countP (Obs.claims k) ≤ 1 := by
  refine RunOn.countP_le_one (Obs.claims k) (fun _ => True) (fun w => InState w.db k .claimed) trivial
    (fun _ _ _ _ _ _ => trivial) (fun w e u o hst _ hL => (step_moves hst).touch.inState hL) (fun w e u o hst _ hpos => ?_) h
  obtain ⟨h1, h0, hu⟩ := step_claims hst hpos
  refine ⟨h1, ?_, hu⟩
  rintro ⟨row, hrow, -⟩
  rw [h0] at hrow
  cases hrow

/-- **A claimed generation has no never-dispatched receipt**: the fence cannot end in both states. -/
theorem claims_exclude_receipts {v' : FenceIdentity}
    (h : Run (step sha256) w l u) (hc : Obs.claimAnswered v true ∈ l) (hr : Obs.neverDispatched v' r ∈ l) :
    v.key ≠ v'.key := by
  intro hk
  obtain ⟨row, hrow, hs⟩ : InState u.db v.key .claimed :=
    h.of_mem (fun w => InState w.db v.key .claimed) (fun _ _ _ _ hst => (step_moves hst).touch.inState)
      (fun w e u o hst hmem => (step_claims hst (List.countP_pos_iff.2 ⟨_, hmem, by simp [Obs.claims]⟩)).2.2) hc
  obtain ⟨row', hrow', hs'⟩ : InState u.db v'.key .cancelled :=
    h.of_mem (fun w => InState w.db v'.key .cancelled) (fun _ _ _ _ hst => (step_moves hst).touch.inState)
      (fun w e u o hst hmem => step_receipts hst hmem) hr
  rw [hk, hrow'] at hrow
  cases hrow
  rw [hs'] at hs
  cases hs

def Committed (w : World) : Prop :=
  ∀ p v h, w.calls p = some (.committed v h) → StopTaken w.db v.key ∧
    ∀ q v' h', w.calls q = some (.committed v' h') → v'.key = v.key → q = p

theorem Moves.committed {o : List Obs} (hm : Moves w u o) (hI : Committed w) : Committed u := by
  have ht := hm.touch
  intro p v h hp
  cases hm with
  | quiet hd ho hc =>
    obtain ⟨hs, huniq⟩ := hI p v h (hc p v h hp)
    exact ⟨ht.stopTaken hs, fun q v' h' hq => huniq q v' h' (hc q v' h' hq)⟩
  | signals p₀ v₀ h₀ hd ho h0 hc =>
    obtain ⟨hs, huniq⟩ := hI p v h (hc p v h hp).2
    exact ⟨ht.stopTaken hs, fun q v' h' hq => huniq q v' h' (hc q v' h' hq).2⟩
  | commits p₀ v₀ h₀ hd ho h0 h1 hc =>
    -- a call committed before holds a Stop taken before, so it is of another generation than the new one
    have hold : ∀ q v' h', w.calls q = some (.committed v' h') → v'.key ≠ v₀.key := fun q v' h' hq hk =>
      h0 (hk ▸ (hI q v' h' hq).1)
    rw [hc p] at hp
    by_cases hpp : p = p₀
    · rw [if_pos hpp] at hp
      cases hp
      refine ⟨h1, fun q v' h' hq hk => ?_⟩
      rw [hc q] at hq
      by_cases hqp : q = p₀
      · rw [hqp, hpp]
      · rw [if_neg hqp] at hq; exact absurd hk (hold q v' h' hq)
    · rw [if_neg hpp] at hp
      obtain ⟨hs, huniq⟩ := hI p v h hp
      refine ⟨ht.stopTaken hs, fun q v' h' hq hk => ?_⟩
      rw [hc q] at hq
      by_cases hqp : q = p₀
      · rw [if_pos hqp] at hq
        cases hq
        exact absurd hk.symm (hold p v h hp)
      · rw [if_neg hqp] at hq; exact huniq q v' h' hq hk

def StopSpent (k : Key) (w : World) : Prop :=
  StopTaken w.db k ∧ ∀ p v h, w.calls p = some (.committed v h) → v.key ≠ k

theorem Moves.stopSpent (hm : Moves w u o) (hL : StopSpent k w) : StopSpent k u := by
  have ht := hm.touch
  refine ⟨ht.stopTaken hL.1, fun p v h hp => ?_⟩
  cases hm with
  | quiet hd ho hc => exact hL.2 p v h (hc p v h hp)
  | signals p₀ v₀ h₀ hd ho h0 hc => exact hL.2 p v h (hc p v h hp).2
  | commits p₀ v₀ h₀ hd ho h0 h1 hc =>
    rw [hc p] at hp
    split at hp
    · cases hp
      rintro rfl
      exact h0 hL.1
    · exact hL.2 p v h hp

/-- **A generation's Stop is signalled once**, from a world with no call in flight. -/
theorem signals_once (k : Key) (h0 : w.calls = fun _ => none) (h : Run (step sha256) w l u) : l.countP (Obs.signals k) ≤ 1 := by
  refine RunOn.countP_le_one (Obs.signals k) Committed (StopSpent k) (fun p v h hp => by rw [h0] at hp; cases hp)
    (fun w e u o hst => (step_moves hst).committed) (fun w e u o hst _ => (step_moves hst).stopSpent)
    (fun w e u o hst hI hpos => ?_) h
  cases step_moves hst with
  | quiet hd ho hc => rw [ho k] at hpos; cases hpos
  | commits p v h hd ho => rw [ho k] at hpos; cases hpos
  | signals p v h hd ho hp hc =>
    have hk : v.key = k := by
      by_contra hk
      rw [ho k, if_neg hk] at hpos
      cases hpos
    subst hk
    obtain ⟨hs, huniq⟩ := hI p v h hp
    refine ⟨by rw [ho, if_pos rfl], fun hL => hL.2 p v h hp rfl, by rw [hd]; exact hs, fun q v' h' hq hk => ?_⟩
    obtain ⟨hne, hq'⟩ := hc q v' h' hq
    exact hne (huniq q v' h' hq' hk)

/-- **Media dispatch is fenced at most once** per session and generation, never beside a never-dispatched receipt. -/
theorem media_dispatch_fenced_once (db : Db) (k : Key) {l : List Obs} {u : World}
    (h : Run (step sha256) ⟨db, fun _ => none⟩ l u) :
    l.countP (Obs.claims k) ≤ 1 ∧ ¬ (0 < l.countP (Obs.claims k) ∧ 0 < l.countP (Obs.receipts k)) ∧
      l.countP (Obs.signals k) ≤ 1 := by
  refine ⟨claims_once k h, ?_, signals_once k rfl h⟩
  rintro ⟨hc, hr⟩
  obtain ⟨x, hx, hxc⟩ := List.countP_pos_iff.1 hc
  obtain ⟨y, hy, hyr⟩ := List.countP_pos_iff.1 hr
  cases x with
  | claimAnswered v answer =>
    simp only [Obs.claims, Bool.and_eq_true, beq_iff_eq] at hxc
    obtain ⟨rfl, hv⟩ := hxc
    cases y with
    | neverDispatched v' r =>
      simp only [Obs.receipts, beq_iff_eq] at hyr
      exact claims_exclude_receipts h hx hy (hv.trans hyr.symm)
    | claimAnswered _ _ | signalled _ | acknowledged _ _ => cases hyr
  | neverDispatched _ _ | signalled _ | acknowledged _ _ => cases hxc

def sampleStop : StopRequest where
  rootSessionId := "root"
  sessionId := "media"
  runnerId := "runner"
  generation := "g1"
  commandSha256 := "0000000000000000000000000000000000000000000000000000000000000000"
  dispatchSha256 := "1111111111111111111111111111111111111111111111111111111111111111"
  childSessionId := "child"
  operationId := "stop"

theorem media_dispatch_fenced_once_sample : let v := sampleStop.toFenceIdentity
    let l := [.claimAnswered v true, .claimAnswered v false, .signalled sampleStop, .acknowledged sampleStop none]
    l.countP (Obs.claims v.key) ≤ 1 ∧ ¬ (0 < l.countP (Obs.claims v.key) ∧ 0 < l.countP (Obs.receipts v.key)) ∧
      l.countP (Obs.signals v.key) ≤ 1 := by
  obtain ⟨u, h⟩ := Sys.replay_obs (step (fun _ => "")) ⟨Db.empty, fun _ => none⟩
    [.claim 0 sampleStop.toFenceIdentity, .claim 1 sampleStop.toFenceIdentity,
      .markNeverDispatched 1 sampleStop.toFenceIdentity,
      .stop 0 false ⟨some ⟨7, sampleStop.toStopIdentity⟩, true⟩ sampleStop, .stopCommit 0,
      .stopSignal 0 ⟨some ⟨7, sampleStop.toStopIdentity⟩, true⟩ false, .crash 0,
      .stop 0 false ⟨none, true⟩ sampleStop]
    [.claimAnswered sampleStop.toFenceIdentity true, .claimAnswered sampleStop.toFenceIdentity false,
      .signalled sampleStop, .acknowledged sampleStop none] (by decide +kernel)
  exact media_dispatch_fenced_once Db.empty sampleStop.toFenceIdentity.key h

end Media
end Wollipog

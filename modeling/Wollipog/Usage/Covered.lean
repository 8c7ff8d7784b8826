import Wollipog.Usage.Exact
import Wollipog.Usage.Unseen
/-!
# Covered — what a session has booked through the covered record

A record past it is booked as it comes; a snapshot past it books what the records up to it have beyond the ledger.
-/
namespace Wollipog.Usage

open Json (Text)

/-! ## Sides -/

inductive Side
  | input | output
  deriving DecidableEq

namespace Side

def metric : Side → Metric
  | .input => .inputTokens
  | .output => .outputTokens

def bucket : Side → RatePricedUsageBucket
  | .input => .inputTokens
  | .output => .outputTokens

def count : Side → TokenUsage → ℕ
  | .input, u => tokenCount u.inputTokens
  | .output, u => tokenCount u.outputTokens

def total : Side → SessionSnapshot → ℕ
  | .input, snapshot => tokenCount snapshot.tokensIn
  | .output, snapshot => tokenCount snapshot.tokensOut

def residual : Side → Reconciliation → ℕ
  | .input, r => r.inputTokens
  | .output, r => r.outputTokens

theorem metric_checked (side : Side) : side.metric.checked = true := by cases side <;> rfl

theorem counts_bucket (side : Side) (u : TokenUsage) : u.counts side.bucket = side.count u := by cases side <;> rfl

end Side

def accruedTokens (side : Side) (e : UsageEvent) : ℕ :=
  match e.payload with
  | .tokenUsage u => if isAccrued u then side.count u else 0
  | .other => 0

section Events

variable {rates : Pricing} {l : Ledgers} {sessionId : String} {e : UsageEvent} {occurredAt : ℤ} {dimensions : Dimensions}

def countEvent (c : Ingested) (e : UsageEvent) : Ingested := (ratePricedUsageRecord e.payload).elim c (countRatePricedUsageInTransaction c)

theorem carriesTokens_of_falsy {u : TokenUsage} (hi : isFalsy u.inputTokens = true) (ho : isFalsy u.outputTokens = true)
    (hc : isFalsy u.cachedInputTokens = true) (hw : isFalsy u.cacheCreationInputTokens = true) : carriesTokens u.counts = false := by
  have hzero : ∀ v : Option ℚ, isFalsy v = true → tokenCount v = 0 := by
    intro v hv
    cases v with
    | none => rfl
    | some q =>
      have hq : q = 0 := by simpa [isFalsy] using hv
      subst hq
      rfl
  simp [carriesTokens, TokenUsage.counts, hzero _ hi, hzero _ ho, hzero _ hc, hzero _ hw]

theorem accrued_of_ratePriced {u : TokenUsage} {r : RatePricedUsageTotal} (h : ratePricedUsageRecord (.tokenUsage u) = some r) :
    isAccrued u = true ∧ r.count = u.counts := by
  unfold ratePricedUsageRecord at h
  dsimp only at h
  split at h
  · cases h
  · rename_i hparent
    split at h
    · cases h
    · rename_i hlive
      split at h
      · cases h
      · split at h
        · cases h
        · rename_i hcarries
          cases h
          refine ⟨?_, rfl⟩
          rw [Bool.not_eq_true, Bool.not_eq_false'] at hcarries
          rw [Bool.or_eq_true, not_or, decide_eq_true_iff] at hlive
          unfold isAccrued
          rw [Bool.and_eq_true, Bool.and_eq_true]
          refine ⟨⟨?_, ?_⟩, ?_⟩
          · revert hparent
            cases u.parentToolUseId.any (fun id => !id.isEmpty) <;> cases u.independentUsage <;> simp
          · exact bne_iff_ne.2 hlive.1
          · rw [Bool.not_eq_true', ← Bool.not_eq_true]
            intro hempty
            simp only [Bool.and_eq_true] at hempty
            rw [carriesTokens_of_falsy hempty.1.1.1.2 hempty.1.1.2 hempty.1.2 hempty.2] at hcarries
            cases hcarries

/-- **What booking an event does to the row**: its tokens, its counts, and nothing to the coverage. -/
theorem bookEvent_row :
    (∀ side : Side, ((bookEvent rates l sessionId e occurredAt dimensions).session sessionId).metrics side.metric =
      (l.session sessionId).metrics side.metric + accruedTokens side e) ∧
    ((bookEvent rates l sessionId e occurredAt dimensions).session sessionId).counts = countEvent (l.session sessionId).counts e ∧
    ((bookEvent rates l sessionId e occurredAt dimensions).session sessionId).runnerHistoryEpoch =
      (l.session sessionId).runnerHistoryEpoch ∧
    ((bookEvent rates l sessionId e occurredAt dimensions).session sessionId).coveredThroughSeq =
      (l.session sessionId).coveredThroughSeq := by
  unfold bookEvent accruedTokens countEvent
  cases hp : e.payload with
  | other => exact ⟨fun side => (add_zero _).symm, rfl, rfl, rfl⟩
  | tokenUsage u =>
    dsimp only
    split
    · rename_i haccrued
      unfold bookRecord
      dsimp only
      rw [session_update_self]
      dsimp only
      rw [hp]
      refine ⟨fun side => ?_, ?_, ?_, ?_⟩
      · rw [delta_session side.metric_checked]
        cases side <;> rfl
      · rw [delta_rest]
      · rw [delta_rest]
      · rw [delta_rest]
    · rename_i haccrued
      refine ⟨fun side => (add_zero _).symm, ?_, rfl, rfl⟩
      cases hr : ratePricedUsageRecord (.tokenUsage u) with
      | none => rfl
      | some r => exact absurd (accrued_of_ratePriced hr).1 haccrued

theorem checkCoverage_one {s : SessionUsage} {epoch : Option ℕ} (h : s.runnerHistoryEpoch = epoch ∨ s.runnerHistoryEpoch = none) (i : ℕ) :
    checkCoverage s ⟨epoch, i⟩ = ({ s with runnerHistoryEpoch := epoch }, decide (s.coveredThroughSeq < i)) := by
  unfold checkCoverage
  dsimp only
  split
  · rename_i hsame
    subst hsame
    rfl
  · rename_i hne
    cases epoch with
    | none =>
      rcases h with h | h
      · exact absurd h hne
      · exact absurd h hne
    | some n =>
      have hnone : s.runnerHistoryEpoch = none := by
        rcases h with h | h
        · exact absurd h hne
        · exact h
      dsimp only
      rw [hnone]

/-- **An event of the log**: skipped when it is covered, else booked, and the coverage goes to it. -/
theorem event_row {epoch : Option ℕ} (h : (l.session sessionId).runnerHistoryEpoch = epoch ∨ (l.session sessionId).runnerHistoryEpoch = none)
    (i : ℕ) :
    let s := l.session sessionId
    let t := (recordUsageEventInTransaction rates l sessionId e occurredAt (some ⟨epoch, i⟩) dimensions).session sessionId
    t.runnerHistoryEpoch = epoch ∧
    (i ≤ s.coveredThroughSeq → t.metrics = s.metrics ∧ t.costRemainderPicousd = s.costRemainderPicousd ∧ t.counts = s.counts ∧
      t.coveredThroughSeq = s.coveredThroughSeq) ∧
    (s.coveredThroughSeq < i → (∀ side : Side, t.metrics side.metric = s.metrics side.metric + accruedTokens side e) ∧
      t.counts = countEvent s.counts e ∧ t.coveredThroughSeq = i) := by
  dsimp only
  rw [recordUsageEvent_eq]
  dsimp only
  rw [checkCoverage_one h]
  dsimp only
  by_cases hi : (l.session sessionId).coveredThroughSeq < i
  · rw [if_pos (decide_eq_true hi), session_update_self]
    obtain ⟨htokens, hcounts, hepoch, -⟩ := @bookEvent_row rates
      (l.update sessionId (fun _ => { l.session sessionId with runnerHistoryEpoch := epoch })) sessionId e occurredAt dimensions
    rw [session_update_self] at htokens hcounts hepoch
    exact ⟨hepoch, fun hle => absurd hi (Nat.not_lt.2 hle), fun _ => ⟨htokens, hcounts, rfl⟩⟩
  · rw [if_neg (by rw [decide_eq_true_iff]; exact hi), session_update_self]
    exact ⟨rfl, fun _ => ⟨rfl, rfl, rfl, rfl⟩, fun hlt => absurd hlt hi⟩

end Events

section Snapshots

variable {rates : Pricing} {sessionId : String} {now : ℤ} {dimensions : Dimensions}

theorem bookResiduals_row (current : ℤ) (residuals : List PricedResidual)
    (hout : ∀ r ∈ residuals, r.buckets.outputTokens = r.missing .outputTokens) : ∀ acc : Ledgers × Option ℤ,
    (∀ side : Side, ((residuals.foldl (bookResidual sessionId now dimensions current) acc).1.session sessionId).metrics side.metric =
      (acc.1.session sessionId).metrics side.metric + (residuals.map (fun r => (r.missing side.bucket : ℤ))).sum) ∧
    (residuals.foldl (bookResidual sessionId now dimensions current) acc).1.session sessionId = { acc.1.session sessionId with
      metrics := ((residuals.foldl (bookResidual sessionId now dimensions current) acc).1.session sessionId).metrics } := by
  induction residuals with
  | nil => exact fun acc => ⟨fun side => (add_zero _).symm, rfl⟩
  | cons r residuals ih =>
    intro acc
    obtain ⟨htokens, hrest⟩ := ih (fun x hx => hout x (List.mem_cons_of_mem r hx)) (bookResidual sessionId now dimensions current acc r)
    rw [List.foldl_cons]
    constructor
    · intro side
      rw [htokens side, List.map_cons, List.sum_cons, ← add_assoc]
      congr 1
      unfold bookResidual
      dsimp only
      rw [delta_session side.metric_checked]
      cases side with
      | input => rfl
      | output => exact congrArg (fun n : ℕ => _ + (n : ℤ)) (hout r List.mem_cons_self)
    · refine hrest.trans ?_
      have hone : (bookResidual sessionId now dimensions current acc r).1.session sessionId = { acc.1.session sessionId with
          metrics := ((bookResidual sessionId now dimensions current acc r).1.session sessionId).metrics } := delta_rest
      rw [hone]

def countSnapshot (s : SessionUsage) (r : Reconciliation) (snapshot : SessionSnapshot) : Ingested :=
  let c := if invalidatesCounts s r snapshot then { s.counts with complete := false } else s.counts
  r.entries.elim c (accountEntries c)

/-- **What a snapshot does to the row**: the residual of its totals and entries. -/
theorem reconcile_row {l : Ledgers} {negotiates : Bool} {snapshot : SessionSnapshot} (hcovers : coversNothing negotiates snapshot = false) :
    let s := l.session sessionId
    let r := reconciliation rates s snapshot dimensions
    let t := (reconcileUsageSnapshotInTransaction rates negotiates l sessionId snapshot now dimensions).session sessionId
    (∀ side : Side, t.metrics side.metric =
      s.metrics side.metric + side.residual r + (r.residuals.map (fun x => (x.missing side.bucket : ℤ))).sum) ∧
    t.counts = countSnapshot s r snapshot ∧ t.runnerHistoryEpoch = snapshot.historyEpoch ∧
    t.coveredThroughSeq =
      if s.runnerHistoryEpoch = snapshot.historyEpoch then max s.coveredThroughSeq snapshot.seq else snapshot.seq := by
  dsimp only
  unfold reconcileUsageSnapshotInTransaction
  rw [if_neg (goes_of_covers hcovers)]
  dsimp only
  rw [session_update_self]
  have hout : ∀ x ∈ (reconciliation rates (l.session sessionId) snapshot dimensions).residuals,
      x.buckets.outputTokens = x.missing .outputTokens := by
    intro x hx
    obtain ⟨e, -, rfl⟩ := List.mem_map.1 hx
    rfl
  generalize hs : l.session sessionId = s at *
  generalize reconciliation rates s snapshot dimensions = r at *
  generalize flatCost rates s r snapshot dimensions = flat
  have hflag := session_update_self l sessionId (fun s => { s with
      counts := if invalidatesCounts s r snapshot then { s.counts with complete := false } else s.counts })
  rw [hs] at hflag
  generalize l.update sessionId (fun s => { s with
      counts := if invalidatesCounts s r snapshot then { s.counts with complete := false } else s.counts }) = flagged at *
  obtain ⟨htokens, hrest⟩ := @bookResiduals_row sessionId now dimensions s.costRemainderPicousd r.residuals hout (recordUsageDeltaInTransaction flagged sessionId
      (usageDelta r.inputTokens flat.1 ⟨r.inputTokens, 0, 0, r.outputTokens⟩ 0 0 flat.2.1) now dimensions, flat.2.2)
  generalize r.residuals.foldl (bookResidual sessionId now dimensions s.costRemainderPicousd) _ = booked at htokens hrest ⊢
  dsimp only at htokens hrest ⊢
  rw [delta_rest, hflag] at hrest
  refine ⟨fun side => ?_, ?_, rfl, ?_⟩
  · rw [htokens side, delta_session side.metric_checked, hflag]
    cases side <;> rfl
  · rw [hrest]
    rfl
  · rw [hrest]

end Snapshots

end Wollipog.Usage

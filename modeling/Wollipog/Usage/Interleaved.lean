import Wollipog.Usage.Repeated
/-!
# Interleaved — events and snapshots of one log in any order

Events come in order, with repeats; true snapshots of any prefix come between them, late and again.
-/
namespace Wollipog.Usage

open Relation (ReflTransGen)

structure Telling where
  ledgers : Ledgers
  delivered : ℕ

/-- An event of the log, the next one or one that was delivered, or a true snapshot of one of its prefixes. -/
inductive Tells (rates : Pricing) (negotiates : Bool) (sessionId : String) (log : List UsageEvent) (epoch : Option ℕ) : Telling → Telling → Prop
  | event {t : Telling} {i : ℕ} {e : UsageEvent} (he : log[i]? = some e) (hi : i ≤ t.delivered) (occurredAt : ℤ) (dimensions : Dimensions) :
    Tells rates negotiates sessionId log epoch t
      ⟨recordUsageEventInTransaction rates t.ledgers sessionId e occurredAt (some ⟨epoch, i + 1⟩) dimensions, max t.delivered (i + 1)⟩
  | snapshot {t : Telling} {snapshot : SessionSnapshot} (ht : Truthful log epoch snapshot) (now : ℤ) (dimensions : Dimensions) :
    Tells rates negotiates sessionId log epoch t
      ⟨reconcileUsageSnapshotInTransaction rates negotiates t.ledgers sessionId snapshot now dimensions, t.delivered⟩

section Runs

variable {rates : Pricing} {negotiates : Bool} {sessionId : String} {log : List UsageEvent} {epoch : Option ℕ} {t t' : Telling}

structure Told (sessionId : String) (log : List UsageEvent) (epoch : Option ℕ) (t : Telling) : Prop where
  agrees : Agrees t.ledgers
  books : Books log epoch (t.ledgers.session sessionId)
  delivered : t.delivered ≤ (t.ledgers.session sessionId).coveredThroughSeq
  row : 0 < (t.ledgers.session sessionId).coveredThroughSeq → sessionId ∈ t.ledgers.sessions.map Prod.fst

/-- **One step** keeps what was told and lets the row rise. -/
theorem Told.step (h : Told sessionId log epoch t) (hstep : Tells rates negotiates sessionId log epoch t t') :
    Told sessionId log epoch t' ∧ Rises epoch (t.ledgers.session sessionId) (t'.ledgers.session sessionId) ∧
      (sessionId ∈ t.ledgers.sessions.map Prod.fst → sessionId ∈ t'.ledgers.sessions.map Prod.fst) := by
  cases hstep with
  | @event i e he hi occurredAt dimensions =>
    have hcovers := hi.trans h.delivered
    obtain ⟨hbooks, hcovered⟩ := @Books.event rates t.ledgers sessionId log epoch dimensions h.books i e he hcovers occurredAt
    have hrow : sessionId ∈ (recordUsageEventInTransaction rates t.ledgers sessionId e occurredAt (some ⟨epoch, i + 1⟩)
        dimensions).sessions.map Prod.fst := by
      rw [recordUsageEvent_eq]
      dsimp only
      split
      · exact Tally.mem_keys_upsert _ _ _ _
      · exact Tally.mem_keys_upsert _ _ _ _
    have hagrees : Agrees (recordUsageEventInTransaction rates t.ledgers sessionId e occurredAt (some ⟨epoch, i + 1⟩) dimensions) :=
      recordUsageEvent_agrees h.agrees _
    refine ⟨⟨hagrees, hbooks, ?_, fun _ => hrow⟩, event_rises h.agrees h.books he hcovers occurredAt, fun _ => hrow⟩
    dsimp only
    rw [hcovered]
    exact max_le_max h.delivered le_rfl
  | @snapshot snapshot ht now dimensions =>
    obtain ⟨hbooks, hcovered⟩ := @Books.reconciled rates t.ledgers sessionId log epoch dimensions snapshot h.books ht negotiates now
    have hagrees : Agrees (reconcileUsageSnapshotInTransaction rates negotiates t.ledgers sessionId snapshot now dimensions) :=
      apply_agrees h.agrees (.snapshot sessionId snapshot now negotiates dimensions)
    have hrises := @reconcile_rises rates t.ledgers sessionId dimensions snapshot log epoch h.agrees h.books ht negotiates now
    have hdelivered := h.delivered.trans ((le_max_left _ _).trans hcovered.ge)
    cases hcovers : coversNothing negotiates snapshot with
    | true =>
      rw [reconcile_covers_nothing hcovers] at hbooks hagrees hrises hdelivered ⊢
      exact ⟨⟨hagrees, hbooks, hdelivered, h.row⟩, hrises, id⟩
    | false =>
      have hrow := @mem_reconcile rates t.ledgers sessionId dimensions snapshot negotiates hcovers now
      exact ⟨⟨hagrees, hbooks, hdelivered, fun _ => hrow⟩, hrises, fun _ => hrow⟩

/-- **A run** keeps what was told, and never covers less. -/
theorem Told.run (h : Told sessionId log epoch t) (hrun : ReflTransGen (Tells rates negotiates sessionId log epoch) t t') :
    Told sessionId log epoch t' ∧
      (t.ledgers.session sessionId).coveredThroughSeq ≤ (t'.ledgers.session sessionId).coveredThroughSeq := by
  induction hrun with
  | refl => exact ⟨h, le_rfl⟩
  | tail _ hstep ih =>
    obtain ⟨htold, hle⟩ := ih
    obtain ⟨htold', hrises, -⟩ := htold.step hstep
    exact ⟨htold', hle.trans hrises.covered⟩

theorem Told.run_holds (h : Told sessionId log epoch t) {snapshot : SessionSnapshot} (ht : Truthful log epoch snapshot)
    (hholds : Holds snapshot (t.ledgers.session sessionId)) (hrow : sessionId ∈ t.ledgers.sessions.map Prod.fst)
    (hrun : ReflTransGen (Tells rates negotiates sessionId log epoch) t t') :
    Holds snapshot (t'.ledgers.session sessionId) ∧ sessionId ∈ t'.ledgers.sessions.map Prod.fst := by
  induction hrun with
  | refl => exact ⟨hholds, hrow⟩
  | @tail b c hbefore hstep ih =>
    obtain ⟨hholds, hrow⟩ := ih
    obtain ⟨htold', hrises, hkeeps⟩ := (h.run hbefore).1.step hstep
    rw [← ht.epoch] at hrises
    exact ⟨hholds.rises hrises htold'.books.size, hkeeps hrow⟩

/-- **A snapshot that is told a second time changes nothing.** -/
theorem Told.again (h : Told sessionId log epoch t) {snapshot : SessionSnapshot} (ht : Truthful log epoch snapshot) (now : ℤ)
    (dimensions : Dimensions) (hrun : ReflTransGen (Tells rates negotiates sessionId log epoch)
      ⟨reconcileUsageSnapshotInTransaction rates negotiates t.ledgers sessionId snapshot now dimensions, t.delivered⟩ t')
    (now' : ℤ) (dimensions' : Dimensions) :
    reconcileUsageSnapshotInTransaction rates negotiates t'.ledgers sessionId snapshot now' dimensions' = t'.ledgers := by
  cases hcovers : coversNothing negotiates snapshot with
  | true => exact reconcile_covers_nothing hcovers
  | false =>
    obtain ⟨hfirst, -, -⟩ := h.step (@Tells.snapshot rates negotiates sessionId log epoch t snapshot ht now dimensions)
    obtain ⟨hholds, hrow⟩ := hfirst.run_holds ht (reconcile_holds h.agrees h.books ht hcovers now) (mem_reconcile hcovers now) hrun
    exact hholds.unchanged hrow negotiates now'

end Runs

/-- **Usage is booked once whichever way it arrives**: the tokens are those of the prefix covered, and a snapshot told again
changes nothing. -/
theorem usage_booked_once (rates : Pricing) (negotiates : Bool) (sessionId : String) (log : List UsageEvent) (epoch : Option ℕ)
    (ops : List UsageOp) (hfresh : (ops.foldl (Ledgers.apply rates) .empty).session sessionId = .empty) {t : Telling}
    (hrun : ReflTransGen (Tells rates negotiates sessionId log epoch) ⟨ops.foldl (Ledgers.apply rates) .empty, 0⟩ t) :
    (∀ side : Side, (t.ledgers.session sessionId).metrics side.metric =
      tokensThrough side log (t.ledgers.session sessionId).coveredThroughSeq) ∧
    (∀ t', ReflTransGen (Tells rates negotiates sessionId log epoch) t t' →
      (t.ledgers.session sessionId).coveredThroughSeq ≤ (t'.ledgers.session sessionId).coveredThroughSeq) ∧
    (∀ snapshot, Truthful log epoch snapshot → ∀ now dimensions t', ReflTransGen (Tells rates negotiates sessionId log epoch)
      ⟨reconcileUsageSnapshotInTransaction rates negotiates t.ledgers sessionId snapshot now dimensions, t.delivered⟩ t' →
        ∀ now' dimensions', reconcileUsageSnapshotInTransaction rates negotiates t'.ledgers sessionId snapshot now' dimensions' =
          t'.ledgers) ∧
    ∀ snapshot, Truthful log epoch snapshot → snapshot.seq < (t.ledgers.session sessionId).coveredThroughSeq →
      CostLe snapshot.cost (t.ledgers.session sessionId).cost →
      (∀ v, snapshot.ratePricedUsage = some v → parseRatePricedUsage v = some v ∧ ShowsTokens log) → ∀ now dimensions,
        reconcileUsageSnapshotInTransaction rates negotiates t.ledgers sessionId snapshot now dimensions = t.ledgers := by
  have hstart : Told sessionId log epoch ⟨ops.foldl (Ledgers.apply rates) .empty, 0⟩ := by
    refine ⟨(run_agrees rates ops .empty empty_agrees).1, ?_, Nat.zero_le _, fun hpos => ?_⟩
    · dsimp only
      rw [hfresh]
      exact books_empty log epoch
    · dsimp only at hpos
      rw [hfresh] at hpos
      exact absurd hpos (Nat.lt_irrefl 0)
  have htold := (hstart.run hrun).1
  refine ⟨htold.books.tokens, fun t' hrun' => (htold.run hrun').2, fun snapshot ht now dimensions t' hrun' now' dimensions' => ?_, ?_⟩
  · exact htold.again ht now dimensions hrun' now' dimensions'
  · intro snapshot ht hseq hcost hentries now dimensions
    exact (htold.books.holds_older ht hseq hcost hentries).unchanged (htold.row (Nat.zero_lt_of_lt hseq)) negotiates now

def reportedPricing : Pricing where
  priceUsage _ _ reported _ estimate :=
    match reported with
    | some cost => ⟨cost, if estimate then .modelPriced else .providerReported, 0⟩
    | none => ⟨0, .unpriced, 0⟩
  sameRequestInputTier _ _ := true

def costRecord (costUsd : ℚ) : UsageEvent := ⟨.tokenUsage {
  inputTokens := some 1
  outputTokens := none
  cachedInputTokens := none
  cacheCreationInputTokens := none
  reasoningOutputTokens := none
  model := none
  costUsd := some costUsd
  accountingIncomplete := false
  liveUsage := none
  independentUsage := false
  serviceTier := .absent
  requestInputTokens := none
  parentToolUseId := none }, false, false⟩

/-- Two records whose cost has more digits than a remainder, and an event without usage. -/
def costLog : List UsageEvent := [costRecord (123456789014 / 10 ^ 13), costRecord (123456789014 / 10 ^ 13), ⟨.other, false, false⟩]

def sampleDimensions : Dimensions := ⟨"org", "organization", "org", "runner", "workspace", "agent", "claude-code", []⟩

def costSnapshot : SessionSnapshot where
  historyEpoch := some 1
  seq := 2
  tokensIn := some 2
  tokensOut := some 0
  costUsd := some (123456789014 / 10 ^ 13 + 123456789014 / 10 ^ 13)
  acknowledgedCostUsd := none
  costIsEstimate := false
  ratePricedUsage := some []

def costStep (l : Ledgers) (i : ℕ) (e : UsageEvent) : Ledgers :=
  recordUsageEventInTransaction reportedPricing l "s" e 0 (some ⟨some 1, i + 1⟩) sampleDimensions

def costLedgers : Ledgers :=
  costStep (costStep (costStep .empty 0 (costRecord (123456789014 / 10 ^ 13))) 1 (costRecord (123456789014 / 10 ^ 13))) 2
    ⟨.other, false, false⟩

theorem costSnapshot_truthful : Truthful costLog (some 1) costSnapshot where
  epoch := rfl
  seq := by decide
  total side := by cases side <;> decide +kernel
  entries v h := by
    cases h
    have hnone : (accrued ((costLog.take 2).map UsageEvent.payload)).map List.length = some 0 := by decide +kernel
    obtain ⟨es, hes, hlength⟩ := Option.map_eq_some_iff.1 hnone
    rw [List.length_eq_zero_iff] at hlength
    rw [hlength] at hes
    exact hes

theorem costLedgers_reached (n : Bool) : ReflTransGen (Tells reportedPricing n "s" costLog (some 1)) ⟨.empty, 0⟩ ⟨costLedgers, 3⟩ := by
  have hfirst := @Tells.event reportedPricing n "s" costLog (some 1) ⟨.empty, 0⟩ 0 _ rfl (Nat.le_refl 0) 0 sampleDimensions
  have hsecond := @Tells.event reportedPricing n "s" costLog (some 1) ⟨costStep .empty 0 (costRecord (123456789014 / 10 ^ 13)), 1⟩ 1 _ rfl
    (Nat.le_refl 1) 0 sampleDimensions
  have hthird := @Tells.event reportedPricing n "s" costLog (some 1) ⟨costStep (costStep .empty 0 (costRecord (123456789014 / 10 ^ 13))) 1
    (costRecord (123456789014 / 10 ^ 13)), 2⟩ 2 _ rfl (Nat.le_refl 2) 0 sampleDimensions
  exact ((ReflTransGen.single hfirst).tail hsecond).tail hthird

/-- **An older snapshot may change the ledger**: its cost is rounded once, the records' each by itself. -/
theorem older_snapshot_books : ReflTransGen (Tells reportedPricing true "s" costLog (some 1)) ⟨.empty, 0⟩ ⟨costLedgers, 3⟩ ∧
    Truthful costLog (some 1) costSnapshot ∧ costSnapshot.seq < (costLedgers.session "s").coveredThroughSeq ∧
    (costLedgers.session "s").metrics .providerReportedRecords = 2 ∧
    ((reconcileUsageSnapshotInTransaction reportedPricing true costLedgers "s" costSnapshot 0 sampleDimensions).session "s").metrics
      .providerReportedRecords = 3 :=
  ⟨costLedgers_reached true, costSnapshot_truthful, by decide +kernel, by decide +kernel, by decide +kernel⟩

theorem usage_booked_once_sample : (costLedgers.session "s").coveredThroughSeq = 3 ∧
    (∀ side : Side, (costLedgers.session "s").metrics side.metric = tokensThrough side costLog 3) ∧
    reconcileUsageSnapshotInTransaction reportedPricing true
      (reconcileUsageSnapshotInTransaction reportedPricing true costLedgers "s" costSnapshot 0 sampleDimensions) "s" costSnapshot 1
      sampleDimensions = reconcileUsageSnapshotInTransaction reportedPricing true costLedgers "s" costSnapshot 0 sampleDimensions := by
  obtain ⟨htokens, -, hagain, -⟩ := usage_booked_once reportedPricing true "s" costLog (some 1) [] rfl (costLedgers_reached true)
  have hcovered : (costLedgers.session "s").coveredThroughSeq = 3 := by decide +kernel
  refine ⟨hcovered, fun side => ?_, hagain costSnapshot costSnapshot_truthful 0 sampleDimensions _ .refl 1 sampleDimensions⟩
  rw [htokens side, hcovered]

end Wollipog.Usage

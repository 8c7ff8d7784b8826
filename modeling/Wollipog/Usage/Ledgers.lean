import Wollipog.Lib.Tally
import Wollipog.Usage.RatePriced
/-!
# Ledgers — what a session's usage is booked to

A usage event or a snapshot books a delta to the session's state, to its model and to the hour; the maintenance rolls
old hours into days and prunes old days.
-/
namespace Wollipog.Usage

open Json (Text)

inductive Metric
  | inputTokens | outputTokens | costMicrousd | uncachedInputTokens | cachedInputTokens | cacheCreationTokens
  | reasoningTokens | cacheSavingsMicrousd | providerReportedRecords | modelPricedRecords | unpricedRecords
  deriving DecidableEq

/-- `UsageLedgerDelta`, and the measures of a row. -/
abbrev Metrics := Metric → ℤ

/-- `UsageDimensions` of a session that has an owner. -/
structure Dimensions where
  organizationId : String
  ownerKind : String
  ownerId : String
  runnerId : String
  workspaceId : String
  agentId : String
  driver : String
  model : Text
  deriving DecidableEq

def codexDrivers : List String := ["codex", "codex-app-server"]

/-- The row of `usage_session_state`, with the session's `usage_session_rate_priced` rows. -/
structure SessionUsage where
  metrics : Metrics
  costRemainderPicousd : ℤ
  runnerHistoryEpoch : Option ℕ
  coveredThroughSeq : ℕ
  counts : Ingested

def SessionUsage.empty : SessionUsage := ⟨0, 0, none, 0, Ingested.empty⟩

/-- A row of `usage_session_models`. -/
structure ModelUsage where
  driver : String
  metrics : Metrics

/-- The usage tables; `pruned` is what the maintenance deleted from the days. -/
structure Ledgers where
  sessions : List (String × SessionUsage)
  models : List ((String × Text) × ModelUsage)
  hourly : List ((ℕ × Dimensions) × Metrics)
  daily : List ((ℕ × Dimensions) × Metrics)
  pruned : Metrics

def Ledgers.empty : Ledgers := ⟨[], [], [], [], 0⟩

def Ledgers.session (l : Ledgers) (sessionId : String) : SessionUsage := Tally.get .empty sessionId l.sessions

/-- `UPDATE usage_session_state`, after the row was inserted where it was not there. -/
def Ledgers.update (l : Ledgers) (sessionId : String) (f : SessionUsage → SessionUsage) : Ledgers :=
  { l with sessions := Tally.upsert .empty sessionId f l.sessions }

/-! ## Amounts -/

/-- `Math.round` -/
def mathRound (q : ℚ) : ℤ := ⌊q + 1 / 2⌋

/-- `Math.round(picousd / 1_000_000)` -/
def carryOf (picousd : ℤ) : ℤ := (picousd + 500000) / 1000000

def usageMicroUsd (value : Option ℚ) : ℤ :=
  match value with
  | some v => if v < 0 then 0 else min (mathRound (v * 1000000)) 1000000000000
  | none => 0

structure CostParts where
  microusd : ℤ
  remainderPicousd : ℤ

def usageCostParts (value : Option ℚ) : CostParts :=
  match value with
  | some v =>
    if v < 0 then ⟨0, 0⟩
    else
      let scaledMicrousd := min (v * 1000000) 1000000000000
      let microusd := ⌊scaledMicrousd⌋
      let remainderPicousd := mathRound ((scaledMicrousd - microusd) * 1000000)
      if 1000000 ≤ remainderPicousd then ⟨microusd + 1, 0⟩ else ⟨microusd, remainderPicousd⟩
  | none => ⟨0, 0⟩

/-- `pico(parts)` -/
def CostParts.pico (c : CostParts) : ℤ := c.microusd * 1000000 + c.remainderPicousd

def SessionUsage.costPico (s : SessionUsage) : ℤ := s.metrics .costMicrousd * 1000000 + s.costRemainderPicousd

inductive CostSource
  | providerReported | modelPriced | unpriced
  deriving DecidableEq

structure UsageTokenBuckets where
  uncachedInputTokens : ℕ
  cachedInputTokens : ℕ
  cacheCreationTokens : ℕ
  outputTokens : ℕ

structure PricedUsage where
  costUsd : ℚ
  costSource : CostSource
  cacheSavingsUsd : ℚ

/-- `pricingContext` -/
structure PricingContext where
  serviceTier : TierField
  requestInputTokens : Option ℚ

/-- `priceUsage` and `sameRequestInputTier` over the rate table at hand. -/
structure Pricing where
  priceUsage : Text → UsageTokenBuckets → Option ℚ → Option PricingContext → Bool → PricedUsage
  sameRequestInputTier : Text → InputRange → Bool

def recordOf (source : Option CostSource) (of : CostSource) : ℤ := if source = some of then 1 else 0

def usageDelta (inputTokens costMicrousd : ℤ) (buckets : UsageTokenBuckets) (reasoningTokens cacheSavingsMicrousd : ℤ)
    (source : Option CostSource) : Metrics
  | .inputTokens => inputTokens
  | .outputTokens => buckets.outputTokens
  | .costMicrousd => costMicrousd
  | .uncachedInputTokens => buckets.uncachedInputTokens
  | .cachedInputTokens => buckets.cachedInputTokens
  | .cacheCreationTokens => buckets.cacheCreationTokens
  | .reasoningTokens => reasoningTokens
  | .cacheSavingsMicrousd => cacheSavingsMicrousd
  | .providerReportedRecords => recordOf source .providerReported
  | .modelPricedRecords => recordOf source .modelPriced
  | .unpricedRecords => recordOf source .unpriced

def hourMs : ℕ := 3600000
def dayMs : ℕ := 86400000

/-- A delta of zeros that `recordUsageDeltaInTransaction` does not book. -/
def booksNothing (amount : Metrics) : Bool :=
  amount .inputTokens == 0 && amount .outputTokens == 0 && amount .costMicrousd == 0 &&
    amount .providerReportedRecords == 0 && amount .modelPricedRecords == 0 && amount .unpricedRecords == 0

def recordUsageDeltaInTransaction (l : Ledgers) (sessionId : String) (amount : Metrics) (occurredAt : ℤ) (dimensions : Dimensions) :
    Ledgers :=
  if booksNothing amount then l
  else
    { l.update sessionId (fun s => { s with metrics := s.metrics + amount }) with
      hourly := Tally.upsert 0 (occurredAt.toNat / hourMs * hourMs, dimensions) (· + amount) l.hourly
      models := Tally.upsert ⟨"", 0⟩ (sessionId, dimensions.model)
        (fun m => ⟨dimensions.driver, m.metrics + amount⟩) l.models }

/-- An event with what only its price reads: whether it has a `pricingContext`, and `costIsEstimate`. -/
structure UsageEvent where
  payload : SessionEventPayload
  hasPricingContext : Bool
  costIsEstimate : Bool

structure UsageSource where
  historyEpoch : Option ℕ
  runnerSeq : ℕ

/-- The coverage check of an event: the row after it, and whether the event still contributes. -/
def checkCoverage (s : SessionUsage) (source : UsageSource) : SessionUsage × Bool :=
  if s.runnerHistoryEpoch = source.historyEpoch then (s, decide (s.coveredThroughSeq < source.runnerSeq))
  else
    match source.historyEpoch with
    | none => (s, decide (s.coveredThroughSeq < source.runnerSeq))
    | some epoch =>
      match s.runnerHistoryEpoch with
      | none => ({ s with runnerHistoryEpoch := some epoch }, decide (s.coveredThroughSeq < source.runnerSeq))
      | some _ => ({ s with runnerHistoryEpoch := some epoch, coveredThroughSeq := source.runnerSeq }, false)

def isFalsy (value : Option ℚ) : Bool := value.all (· == 0)

/-- The record is accrued: it is not a subagent's own, provisional or an empty settlement. -/
def isAccrued (u : TokenUsage) : Bool :=
  (!u.parentToolUseId.any (fun id => !id.isEmpty) || u.independentUsage) && u.liveUsage != some .provisional &&
    !(u.liveUsage == some .settled && !u.accountingIncomplete && u.costUsd == none && isFalsy u.inputTokens &&
      isFalsy u.outputTokens && isFalsy u.cachedInputTokens && isFalsy u.cacheCreationInputTokens)

def eventDimensions (u : TokenUsage) (dimensions : Dimensions) : Dimensions :=
  match boundedText u.model 128 with
  | some model => { dimensions with model := model }
  | none => dimensions

def eventBuckets (u : TokenUsage) (dimensions : Dimensions) : UsageTokenBuckets where
  uncachedInputTokens :=
    if codexDrivers.contains dimensions.driver then tokenCount u.inputTokens - tokenCount u.cachedInputTokens
    else tokenCount u.inputTokens
  cachedInputTokens := tokenCount u.cachedInputTokens
  cacheCreationTokens := tokenCount u.cacheCreationInputTokens
  outputTokens := tokenCount u.outputTokens

def eventPrice (rates : Pricing) (e : UsageEvent) (u : TokenUsage) (dimensions : Dimensions) : PricedUsage :=
  if u.accountingIncomplete then ⟨0, .unpriced, 0⟩
  else
    rates.priceUsage dimensions.model (eventBuckets u dimensions) (usable u.costUsd)
      (if e.hasPricingContext then some ⟨u.serviceTier, u.requestInputTokens⟩ else none) e.costIsEstimate

def isCounted (u : TokenUsage) : Bool :=
  carriesTokens u.counts || (usable u.costUsd).isSome || u.accountingIncomplete

def bookRecord (rates : Pricing) (l : Ledgers) (sessionId : String) (e : UsageEvent) (u : TokenUsage) (occurredAt : ℤ)
    (sessionDimensions : Dimensions) : Ledgers :=
  let dimensions := eventDimensions u sessionDimensions
  let priced := eventPrice rates e u dimensions
  let cost := usageCostParts (some priced.costUsd)
  let combinedRemainder := (l.session sessionId).costRemainderPicousd + cost.remainderPicousd
  let carryMicrousd := carryOf combinedRemainder
  let booked := recordUsageDeltaInTransaction l sessionId
    (usageDelta (tokenCount u.inputTokens) (cost.microusd + carryMicrousd) (eventBuckets u dimensions)
      (min (tokenCount u.outputTokens) (tokenCount u.reasoningOutputTokens)) (usageMicroUsd (some priced.cacheSavingsUsd))
      (if isCounted u then some priced.costSource else none)) occurredAt dimensions
  booked.update sessionId (fun s => { s with
    counts := (ratePricedUsageRecord e.payload).elim s.counts (countRatePricedUsageInTransaction s.counts)
    costRemainderPicousd := combinedRemainder - carryMicrousd * 1000000 })

def recordUsageEventInTransaction (rates : Pricing) (l : Ledgers) (sessionId : String) (e : UsageEvent) (occurredAt : ℤ)
    (source : Option UsageSource) (dimensions : Dimensions) : Ledgers :=
  let book (l : Ledgers) : Ledgers :=
    match e.payload with
    | .tokenUsage u => if isAccrued u then bookRecord rates l sessionId e u occurredAt dimensions else l
    | .other => l
  match source with
  | none => book l
  | some source =>
    let checked := checkCoverage (l.session sessionId) source
    let l := l.update sessionId (fun _ => checked.1)
    if checked.2 then (book l).update sessionId (fun s => { s with coveredThroughSeq := source.runnerSeq }) else l

/-! ## Snapshots -/

structure SessionSnapshot where
  historyEpoch : Option ℕ
  seq : ℕ
  tokensIn : Option ℚ
  tokensOut : Option ℚ
  costUsd : Option ℚ
  acknowledgedCostUsd : Option ℚ
  costIsEstimate : Bool
  ratePricedUsage : Option (List RatePricedUsageTotal)

/-- An entry that `parseRatePricedUsage` takes. -/
def isEntry (entry : RatePricedUsageTotal) : Bool :=
  entry.model.all (fun m => boundedText (some m) 128 == some m) && entry.serviceTier.all (fun t => decide (t.length ≤ 64)) &&
    [RatePricedUsageBucket.inputTokens, .netInputTokens, .outputTokens, .cachedInputTokens, .cacheCreationInputTokens,
      .reasoningOutputTokens].all (fun bucket => decide (entry.count bucket ≤ maxTokens)) &&
    entry.requestInputTokens.all (fun r => decide (0 ≤ r.min) && decide (r.min ≤ r.max))

def parseRatePricedUsage (value : List RatePricedUsageTotal) : Option (List RatePricedUsageTotal) :=
  if value.length ≤ ratePricedUsageMaxEntries ∧ value.all isEntry = true ∧ (value.map ratePricedUsageKey).Nodup then some value
  else none

def usableEntries (c : Ingested) (value : Option (List RatePricedUsageTotal)) : Option (List RatePricedUsageTotal) :=
  if c.complete then (value.bind parseRatePricedUsage).filter (fun entries => (ratePricedResiduals entries c).isSome) else none

structure PricedResidual where
  entry : RatePricedUsageTotal
  missing : Counts
  buckets : UsageTokenBuckets
  priced : PricedUsage

def PricedResidual.cost (r : PricedResidual) : CostParts := usageCostParts (some r.priced.costUsd)

def tierField (tier : Option Text) : TierField := tier.elim .absent .text

/-- Priced as event-first ingestion does; a tier that the range does not pin down leaves it unpriced. -/
def priceResidual (rates : Pricing) (dimensions : Dimensions) (entry : RatePricedUsageTotal) (missing : Counts) : PricedResidual :=
  let model := entry.model.getD dimensions.model
  let buckets : UsageTokenBuckets := {
    uncachedInputTokens :=
      if codexDrivers.contains dimensions.driver then missing .netInputTokens else missing .inputTokens
    cachedInputTokens := missing .cachedInputTokens
    cacheCreationTokens := missing .cacheCreationInputTokens
    outputTokens := missing .outputTokens }
  let priced :=
    match entry.requestInputTokens with
    | some range =>
      if rates.sameRequestInputTier model range then
        rates.priceUsage model buckets none (some ⟨tierField entry.serviceTier, some range.max⟩) false
      else ⟨0, .unpriced, 0⟩
    | none => rates.priceUsage model buckets none (entry.serviceTier.map (fun tier => ⟨.text tier, none⟩)) false
  ⟨entry, missing, buckets, priced⟩

structure Reconciliation where
  entries : Option (List RatePricedUsageTotal)
  residuals : List PricedResidual
  targetMicrousd : ℤ
  snapshotRemainder : ℤ
  inputTokens : ℕ
  outputTokens : ℕ
  providerCostGrew : Bool
  adoptsSnapshotCost : Bool
  absorbedPico : ℤ

def reconciliation (rates : Pricing) (s : SessionUsage) (snapshot : SessionSnapshot) (dimensions : Dimensions) : Reconciliation :=
  let entries := usableEntries s.counts snapshot.ratePricedUsage
  let missing := (entries.bind (fun es => ratePricedResiduals es s.counts)).getD []
  let residuals := missing.map (fun r => priceResidual rates dimensions r.1 r.2)
  let parts := usageCostParts snapshot.costUsd
  let targetMicrousd := usageMicroUsd snapshot.costUsd
  let snapshotRemainder := (parts.microusd - targetMicrousd) * 1000000 + parts.remainderPicousd
  let grew := decide (s.metrics .costMicrousd < targetMicrousd ∨
    (targetMicrousd = s.metrics .costMicrousd ∧ s.costRemainderPicousd < snapshotRemainder))
  let absorbable := min (min (parts.pico - s.costPico) ((usageCostParts snapshot.acknowledgedCostUsd).pico - s.costPico))
    (residuals.map (fun r => r.cost.pico)).sum
  { entries := entries
    residuals := residuals
    targetMicrousd := targetMicrousd
    snapshotRemainder := snapshotRemainder
    inputTokens := (tokenCount snapshot.tokensIn - s.metrics .inputTokens - (missing.map (fun r => (r.2 .inputTokens : ℤ))).sum).toNat
    outputTokens := (tokenCount snapshot.tokensOut - s.metrics .outputTokens - (missing.map (fun r => (r.2 .outputTokens : ℤ))).sum).toNat
    providerCostGrew := grew
    adoptsSnapshotCost := decide (s.metrics .costMicrousd < targetMicrousd ∨
      (targetMicrousd = s.metrics .costMicrousd ∧ s.costRemainderPicousd ≤ snapshotRemainder))
    absorbedPico := if grew ∧ 0 < absorbable then absorbable else 0 }

def Reconciliation.residualTokens (r : Reconciliation) : Bool := decide (0 < r.inputTokens) || decide (0 < r.outputTokens)

def flatPrice (rates : Pricing) (r : Reconciliation) (dimensions : Dimensions) : PricedUsage :=
  rates.priceUsage dimensions.model ⟨r.inputTokens, 0, 0, r.outputTokens⟩ none none false

/-- The flat part of a snapshot: its micro-dollars, its cost source and the remainder it leaves. -/
def flatCost (rates : Pricing) (s : SessionUsage) (r : Reconciliation) (snapshot : SessionSnapshot) (dimensions : Dimensions) :
    ℤ × Option CostSource × Option ℤ :=
  if 0 < r.absorbedPico then
    let absorbedMicrousd := (r.absorbedPico + 500000) / 1000000
    let fraction := r.snapshotRemainder - (r.absorbedPico - absorbedMicrousd * 1000000)
    let carryMicrousd := carryOf fraction
    let costMicrousd := max 0 (r.targetMicrousd - s.metrics .costMicrousd) + (carryMicrousd - absorbedMicrousd)
    (costMicrousd,
      if r.residualTokens then some .unpriced
      else if costMicrousd = 0 then none
      else some (if snapshot.costIsEstimate then .modelPriced else .providerReported),
      some (fraction - carryMicrousd * 1000000))
  else if r.providerCostGrew then
    (max 0 (r.targetMicrousd - s.metrics .costMicrousd),
      some (if snapshot.costIsEstimate then .modelPriced else .providerReported),
      if r.adoptsSnapshotCost then some r.snapshotRemainder else none)
  else if r.residualTokens then
    let priced := flatPrice rates r dimensions
    let parts := usageCostParts (some priced.costUsd)
    let combinedRemainder := s.costRemainderPicousd + parts.remainderPicousd
    let carryMicrousd := carryOf combinedRemainder
    (parts.microusd + carryMicrousd, some priced.costSource, some (combinedRemainder - carryMicrousd * 1000000))
  else (0, none, if r.adoptsSnapshotCost then some r.snapshotRemainder else none)

def bookResidual (sessionId : String) (now : ℤ) (dimensions : Dimensions) (current : ℤ) (acc : Ledgers × Option ℤ) (r : PricedResidual) :
    Ledgers × Option ℤ :=
  let combinedRemainder := acc.2.getD current + r.cost.remainderPicousd
  let carryMicrousd := carryOf combinedRemainder
  (recordUsageDeltaInTransaction acc.1 sessionId
    (usageDelta (r.missing .inputTokens) (r.cost.microusd + carryMicrousd) r.buckets
      (min (r.missing .outputTokens) (r.missing .reasoningOutputTokens)) (usageMicroUsd (some r.priced.cacheSavingsUsd))
      (if r.priced.costSource = .providerReported then none else some r.priced.costSource)) now
    (match r.entry.model with
      | some model => { dimensions with model := model }
      | none => dimensions),
    some (combinedRemainder - carryMicrousd * 1000000))

def accountEntries (c : Ingested) (entries : List RatePricedUsageTotal) : Ingested :=
  { c with rows := entries.foldl (fun rows entry =>
      rows.set (ratePricedUsageKey entry) (fun bucket => max (c.seen (ratePricedUsageKey entry) bucket) (entry.count bucket))) c.rows }

def invalidatesCounts (s : SessionUsage) (r : Reconciliation) (snapshot : SessionSnapshot) : Bool :=
  s.counts.complete && (if snapshot.ratePricedUsage.isNone then r.residualTokens else r.entries.isNone)

/-- `negotiates`: the session's runner announces that its first snapshot covers no history. -/
def reconcileUsageSnapshotInTransaction (rates : Pricing) (negotiates : Bool) (l : Ledgers) (sessionId : String)
    (snapshot : SessionSnapshot) (now : ℤ) (dimensions : Dimensions) : Ledgers :=
  if snapshot.historyEpoch = none ∧ snapshot.seq = 0 ∧ negotiates = true then l
  else
    let s := l.session sessionId
    let r := reconciliation rates s snapshot dimensions
    let flat := flatCost rates s r snapshot dimensions
    let l := l.update sessionId (fun s => { s with
      counts := if invalidatesCounts s r snapshot then { s.counts with complete := false } else s.counts })
    let l := recordUsageDeltaInTransaction l sessionId
      (usageDelta r.inputTokens flat.1 ⟨r.inputTokens, 0, 0, r.outputTokens⟩ 0 0 flat.2.1) now dimensions
    let booked := r.residuals.foldl (bookResidual sessionId now dimensions s.costRemainderPicousd) (l, flat.2.2)
    booked.1.update sessionId (fun s => { s with
      costRemainderPicousd := booked.2.getD s.costRemainderPicousd
      counts := r.entries.elim s.counts (accountEntries s.counts)
      runnerHistoryEpoch := snapshot.historyEpoch
      coveredThroughSeq :=
        if s.runnerHistoryEpoch = snapshot.historyEpoch then max s.coveredThroughSeq snapshot.seq else snapshot.seq })

structure RetentionPolicy where
  organizationId : String
  hourlyDays : ℕ
  dailyDays : ℕ

/-- `organization_id=? AND bucket_ts < ?` -/
def isBefore (policy : RetentionPolicy) (cutoff : ℤ) (r : (ℕ × Dimensions) × Metrics) : Bool :=
  r.1.2.organizationId == policy.organizationId && decide ((r.1.1 : ℤ) < cutoff)

/-- The hours of an organization before a cut-off are rolled into days, old days are pruned. -/
def maintainOrganization (now : ℤ) (l : Ledgers) (policy : RetentionPolicy) : Ledgers :=
  let hourlyCutoff := (now - policy.hourlyDays * dayMs) / hourMs * hourMs
  let dailyCutoff := (now - policy.dailyDays * dayMs) / dayMs * dayMs
  let rolled := Tally.addAll ((l.hourly.filter (isBefore policy hourlyCutoff)).map (fun r => ((r.1.1 / dayMs * dayMs, r.1.2), r.2))) []
  let daily := Tally.addAll rolled l.daily
  { l with
    hourly := l.hourly.filter (fun r => !isBefore policy hourlyCutoff r)
    daily := daily.filter (fun r => !isBefore policy dailyCutoff r)
    pruned := l.pruned + Tally.total (fun _ m => m) (daily.filter (isBefore policy dailyCutoff)) }

def maintainUsageAggregation (l : Ledgers) (policies : List RetentionPolicy) (now : ℤ) : Ledgers :=
  policies.foldl (maintainOrganization now) l

end Wollipog.Usage

import Wollipog.Usage.Ledgers
/-!
# Rates — a usage record priced from the rate table

A model has a base rate and variants by service tier and request size. Records summed over a range of sizes are priced
as one where no threshold falls inside it. `toLowerCase` stands for the language's own.
-/
namespace Wollipog.Usage

open Json (Text CodeUnit)

structure RequestModelRate where
  inputCostPerToken : ℚ
  outputCostPerToken : ℚ
  cacheReadCostPerToken : Option ℚ
  cacheCreationCostPerToken : Option ℚ

/-- One of `requestRates`. -/
structure RequestRate where
  serviceTier : Text
  inputThreshold : Option ℚ
  rate : Option RequestModelRate

/-- `requestRates` is empty where the field is absent. -/
structure ModelRate where
  inputCostPerToken : ℚ
  outputCostPerToken : ℚ
  cacheReadCostPerToken : ℚ
  cacheCreationCostPerToken : ℚ
  requestRates : List RequestRate

abbrev RateTable := OrdMap Text ModelRate

def ascii (s : String) : Text := s.toList.map (fun c => Fin.ofNat 65536 c.toNat)

def unpriceableModels : List Text := ["<synthetic>", "synthetic", "opus", "sonnet", "haiku", "fable", "default", "auto"].map ascii

section Lookup

variable (toLowerCase : Text → Text)

def normalizeRateKey (model : Text) : Text := toLowerCase (trim model)

def bareModelName (key : Text) : Text := key.rtakeWhile (fun c => c != 47)

def stripVariantSuffix (key : Text) : Text := key.takeWhile (fun c => c != 91)

/-- Without a trailing `-YYYYMMDD`. -/
def stripSnapshotDate (key : Text) : Text :=
  let date := key.drop (key.length - 9)
  if date.length == 9 && date.head? == some 45 && date.tail.all (fun c => decide (48 ≤ c) && decide (c ≤ 57)) then key.take (key.length - 9)
  else key

def lookupRate (table : RateTable) : Option Text → Option ModelRate
  | none => none
  | some model =>
    let key := stripVariantSuffix (normalizeRateKey toLowerCase model)
    let bare := bareModelName key
    if bare.isEmpty || unpriceableModels.contains bare then none
    else
      (table.get key).or ((table.get bare).or ((table.get (stripSnapshotDate key)).or (table.get (stripSnapshotDate bare))))

end Lookup

/-! ## The rate of a request -/

def defaultTier : Text := ascii "default"

/-- `context?.serviceTier ?? "default"`; a value that is no text names no tier. -/
def requestedTier : TierField → Option Text
  | .absent => some defaultTier
  | .text s => some s
  | .other => none

def tierName (requested : Text) : Text :=
  if requested = ascii "fast" then ascii "priority" else if requested = ascii "standard" then defaultTier else requested

def TierField.isAbsent : TierField → Bool
  | .absent => true
  | _ => false

def sizeTier (variants : List RequestRate) (requestInput : Option ℚ) : ℚ :=
  variants.foldl (fun maximum variant =>
    match variant.inputThreshold, requestInput with
    | some t, some q => if t < q then max maximum t else maximum
    | _, _ => maximum) 0

def ModelRate.standard (base : ModelRate) : RequestModelRate where
  inputCostPerToken := base.inputCostPerToken
  outputCostPerToken := base.outputCostPerToken
  cacheReadCostPerToken := some base.cacheReadCostPerToken
  cacheCreationCostPerToken := some base.cacheCreationCostPerToken

def lacksCoordinates (base : ModelRate) (reportedCost : Option ℚ) (serviceTier : TierField) (requestInput : Option ℚ) : Bool :=
  (reportedCost.isNone && base.requestRates.any (fun v => v.serviceTier != defaultTier) && serviceTier.isAbsent) ||
    (base.requestRates.any (fun v => v.inputThreshold.isSome) && requestInput.isNone)

/-- `selected`: the variant of the request's tier and size, else the base rate. -/
def selectedRate (base : ModelRate) (serviceTier : TierField) (requestInput : Option ℚ) : Option RequestModelRate :=
  let tier := (requestedTier serviceTier).map tierName
  let threshold := sizeTier base.requestRates requestInput
  match base.requestRates.find? (fun v => decide (tier = some v.serviceTier) && decide (v.inputThreshold.getD 0 = threshold)) with
  | some candidate => candidate.rate
  | none => if tier = some defaultTier ∧ threshold = 0 then some base.standard else none

structure AppliedRate where
  inputCostPerToken : ℚ
  outputCostPerToken : ℚ
  cacheReadCostPerToken : ℚ
  cacheCreationCostPerToken : ℚ

def RequestModelRate.applied (r : RequestModelRate) : AppliedRate where
  inputCostPerToken := r.inputCostPerToken
  outputCostPerToken := r.outputCostPerToken
  cacheReadCostPerToken := r.cacheReadCostPerToken.getD 0
  cacheCreationCostPerToken := r.cacheCreationCostPerToken.getD 0

def ModelRate.applied (base : ModelRate) : AppliedRate where
  inputCostPerToken := base.inputCostPerToken
  outputCostPerToken := base.outputCostPerToken
  cacheReadCostPerToken := base.cacheReadCostPerToken
  cacheCreationCostPerToken := base.cacheCreationCostPerToken

def RequestModelRate.lacks (r : RequestModelRate) (buckets : UsageTokenBuckets) : Bool :=
  (decide (0 < buckets.cachedInputTokens) && r.cacheReadCostPerToken.isNone) ||
    (decide (0 < buckets.cacheCreationTokens) && r.cacheCreationCostPerToken.isNone)

def requestRate (base : ModelRate) (buckets : UsageTokenBuckets) (reportedCost : Option ℚ) (context : Option PricingContext) :
    Option AppliedRate :=
  let serviceTier := context.elim .absent PricingContext.serviceTier
  let requestInput := context.bind (fun c => usable c.requestInputTokens)
  if lacksCoordinates base reportedCost serviceTier requestInput then none
  else
    (selectedRate base serviceTier requestInput).bind (fun r => if r.lacks buckets then none else some r.applied)

def AppliedRate.cost (r : AppliedRate) (b : UsageTokenBuckets) : ℚ :=
  b.uncachedInputTokens * r.inputCostPerToken + b.cachedInputTokens * r.cacheReadCostPerToken +
    b.cacheCreationTokens * r.cacheCreationCostPerToken + b.outputTokens * r.outputCostPerToken

section Price

variable (toLowerCase : Text → Text)

def priceUsage (table : Option RateTable) (model : Option Text) (buckets : UsageTokenBuckets) (reportedCostUsd : Option ℚ)
    (context : Option PricingContext) (costIsEstimate : Bool) : PricedUsage :=
  let base := table.bind (fun t => lookupRate toLowerCase t model)
  let reportedCost := usable reportedCostUsd
  let rate := base.bind (fun b =>
    if context.isSome || (reportedCost.isNone && !b.requestRates.isEmpty) then requestRate b buckets reportedCost context
    else some b.applied)
  let cacheSavingsUsd := rate.elim 0 (fun r => max 0 (buckets.cachedInputTokens * (r.inputCostPerToken - r.cacheReadCostPerToken)))
  match reportedCost, rate with
  | some cost, _ => ⟨cost, if costIsEstimate then .modelPriced else .providerReported, cacheSavingsUsd⟩
  | none, none => ⟨0, .unpriced, 0⟩
  | none, some r => ⟨r.cost buckets, .modelPriced, cacheSavingsUsd⟩

def sameRequestInputTier (table : Option RateTable) (model : Option Text) (min max : ℚ) : Bool :=
  let variants := (table.bind (fun t => lookupRate toLowerCase t model)).elim [] ModelRate.requestRates
  !variants.any (fun v => v.inputThreshold.any (fun t => decide (min ≤ t) && decide (t < max)))

def pricing (table : Option RateTable) : Pricing where
  priceUsage model := priceUsage toLowerCase table (some model)
  sameRequestInputTier model range := sameRequestInputTier toLowerCase table (some model) range.min range.max

end Price

variable {min q q' : ℚ} {base : ModelRate} {records : List UsageRecord}

/-- **A range without a threshold inside selects one size tier.** -/
theorem sizeTier_eq {max : ℚ} (hq : min ≤ q ∧ q ≤ max) (hq' : min ≤ q' ∧ q' ≤ max) (variants : List RequestRate)
    (h : ∀ v ∈ variants, ∀ t, v.inputThreshold = some t → t < min ∨ max ≤ t) :
    sizeTier variants (some q) = sizeTier variants (some q') := by
  unfold sizeTier
  refine List.foldl_ext _ _ _ (fun maximum variant hmem => ?_)
  cases ht : variant.inputThreshold with
  | none => rfl
  | some t =>
    have hside : t < q ↔ t < q' := by
      rcases h variant hmem t ht with hlow | hhigh
      · exact ⟨fun _ => hlow.trans_le hq'.1, fun _ => hlow.trans_le hq.1⟩
      · exact ⟨fun hlt => absurd (hlt.trans_le hq.2) (not_lt.2 hhigh), fun hlt => absurd (hlt.trans_le hq'.2) (not_lt.2 hhigh)⟩
    simp only [hside]

theorem selectedRate_eq {max : ℚ} (hq : min ≤ q ∧ q ≤ max) (hq' : min ≤ q' ∧ q' ≤ max)
    (h : ∀ v ∈ base.requestRates, ∀ t, v.inputThreshold = some t → t < min ∨ max ≤ t) (serviceTier : TierField) :
    selectedRate base serviceTier (some q) = selectedRate base serviceTier (some q') := by
  unfold selectedRate
  rw [sizeTier_eq hq hq' base.requestRates h]

theorem threshold_outside {toLowerCase : Text → Text} {table : Option RateTable} {model : Option Text} {max : ℚ}
    (hbase : table.bind (fun t => lookupRate toLowerCase t model) = some base)
    (h : sameRequestInputTier toLowerCase table model min max = true) :
    ∀ v ∈ base.requestRates, ∀ t, v.inputThreshold = some t → t < min ∨ max ≤ t := by
  intro v hv t ht
  rw [sameRequestInputTier, hbase, Bool.not_eq_true', List.any_eq_false] at h
  have hinside := h v hv
  rw [ht] at hinside
  by_contra hneither
  rw [not_or, not_lt, not_le] at hneither
  exact hinside (by simp [hneither.1, hneither.2])

/-! ## The sum -/

structure UsageRecord where
  buckets : UsageTokenBuckets
  requestInputTokens : ℚ≥0

def summed (records : List UsageRecord) : UsageTokenBuckets where
  uncachedInputTokens := (records.map (fun r => r.buckets.uncachedInputTokens)).sum
  cachedInputTokens := (records.map (fun r => r.buckets.cachedInputTokens)).sum
  cacheCreationTokens := (records.map (fun r => r.buckets.cacheCreationTokens)).sum
  outputTokens := (records.map (fun r => r.buckets.outputTokens)).sum

theorem cost_summed (rate : AppliedRate) (records : List UsageRecord) :
    rate.cost (summed records) = (records.map (fun r => rate.cost r.buckets)).sum := by
  induction records with
  | nil => simp [summed, AppliedRate.cost]
  | cons r rs ih =>
    rw [List.map_cons, List.sum_cons, ← ih]
    simp only [summed, AppliedRate.cost, List.map_cons, List.sum_cons, Nat.cast_add]
    ring

theorem exists_pos_of_sum {f : UsageRecord → ℕ} (h : 0 < (records.map f).sum) : ∃ r ∈ records, 0 < f r := by
  by_contra hnone
  refine absurd (List.sum_eq_zero (fun n hn => ?_)) (Nat.pos_iff_ne_zero.1 h)
  obtain ⟨r, hr, rfl⟩ := List.mem_map.1 hn
  exact Nat.eq_zero_of_not_pos (fun hpos => hnone ⟨r, hr, hpos⟩)

theorem lacks_summed {rate : RequestModelRate} (h : ∀ r ∈ records, rate.lacks r.buckets = false) :
    rate.lacks (summed records) = false := by
  simp only [RequestModelRate.lacks, Bool.or_eq_false_iff, Bool.and_eq_false_iff, decide_eq_false_iff_not] at h ⊢
  refine ⟨or_iff_not_imp_left.2 (fun hpos => ?_), or_iff_not_imp_left.2 (fun hpos => ?_)⟩
  · obtain ⟨r, hr, hused⟩ := exists_pos_of_sum (not_not.1 hpos)
    exact (h r hr).1.resolve_left (not_not.2 hused)
  · obtain ⟨r, hr, hused⟩ := exists_pos_of_sum (not_not.1 hpos)
    exact (h r hr).2.resolve_left (not_not.2 hused)

section Sum

variable (toLowerCase : Text → Text) (table : Option RateTable) (model : Option Text) (serviceTier : TierField)

def priceAt (buckets : UsageTokenBuckets) (requestInputTokens : ℚ≥0) : PricedUsage :=
  priceUsage toLowerCase table model buckets none (some ⟨serviceTier, some requestInputTokens⟩) false

variable {toLowerCase table model serviceTier}

theorem usable_coe (q : ℚ≥0) : usable (some (q : ℚ)) = some (q : ℚ) := by
  simp [usable]

theorem priceAt_of_none (h : table.bind (fun t => lookupRate toLowerCase t model) = none) (buckets : UsageTokenBuckets) (q : ℚ≥0) :
    priceAt toLowerCase table model serviceTier buckets q = ⟨0, .unpriced, 0⟩ := by
  unfold priceAt priceUsage
  rw [h]
  rfl

variable {q : ℚ≥0} {base : ModelRate} {rate : RequestModelRate} {buckets : UsageTokenBuckets}

/-- **The price of a request** is the cost at the selected rate, where every coordinate and bucket has one. -/
theorem priceAt_of_some (h : table.bind (fun t => lookupRate toLowerCase t model) = some base)
    (buckets : UsageTokenBuckets) (q : ℚ≥0) :
    priceAt toLowerCase table model serviceTier buckets q =
      match requestRate base buckets none (some ⟨serviceTier, some q⟩) with
      | some r => ⟨r.cost buckets, .modelPriced, max 0 (buckets.cachedInputTokens * (r.inputCostPerToken - r.cacheReadCostPerToken))⟩
      | none => ⟨0, .unpriced, 0⟩ := by
  unfold priceAt priceUsage
  rw [h]
  cases hr : requestRate base buckets none (some ⟨serviceTier, some q⟩) with
  | none => simp [usable, hr]
  | some r => simp [usable, hr]

/-- What the records and their sum are priced at: the coordinates that matter are there, and select a rate. -/
def PricedBy (base : ModelRate) (serviceTier : TierField) (q : ℚ≥0) (rate : RequestModelRate) : Prop :=
  lacksCoordinates base none serviceTier (some q) = false ∧ selectedRate base serviceTier (some q) = some rate

theorem requestRate_eq_some {applied : AppliedRate} :
    requestRate base buckets none (some ⟨serviceTier, some q⟩) = some applied ↔
      ∃ rate, PricedBy base serviceTier q rate ∧ rate.lacks buckets = false ∧ rate.applied = applied := by
  simp only [requestRate, Option.elim_some, Option.bind_some, usable_coe]
  constructor
  · intro h
    split at h
    · cases h
    · rename_i hcoordinates
      obtain ⟨rate, hrate, happlied⟩ := Option.bind_eq_some_iff.1 h
      split at happlied
      · cases happlied
      · rename_i hlacks
        exact ⟨rate, ⟨Bool.eq_false_iff.2 hcoordinates, hrate⟩, Bool.eq_false_iff.2 hlacks, Option.some.inj happlied⟩
  · rintro ⟨rate, ⟨hcoordinates, hrate⟩, hlacks, rfl⟩
    rw [hcoordinates, hrate, Option.bind_some, hlacks]
    rfl

theorem PricedBy.at {min max : ℚ} {q' : ℚ≥0} (h : PricedBy base serviceTier q rate)
    (hq : min ≤ q ∧ (q : ℚ) ≤ max) (hq' : min ≤ q' ∧ (q' : ℚ) ≤ max)
    (houtside : ∀ v ∈ base.requestRates, ∀ t, v.inputThreshold = some t → t < min ∨ max ≤ t) : PricedBy base serviceTier q' rate :=
  ⟨h.1, (selectedRate_eq hq hq' houtside serviceTier).symm.trans h.2⟩

theorem priceAt_modelPriced (hbase : table.bind (fun t => lookupRate toLowerCase t model) = some base) (h : (priceAt toLowerCase table model serviceTier buckets q).costSource = .modelPriced) :
    ∃ rate, PricedBy base serviceTier q rate ∧ rate.lacks buckets = false := by
  rw [priceAt_of_some hbase] at h
  split at h
  · rename_i applied happlied
    obtain ⟨rate, hpriced, hlacks, -⟩ := requestRate_eq_some.1 happlied
    exact ⟨rate, hpriced, hlacks⟩
  · cases h

theorem priceAt_eq (hbase : table.bind (fun t => lookupRate toLowerCase t model) = some base) (h : PricedBy base serviceTier q rate)
    (hlacks : rate.lacks buckets = false) :
    (priceAt toLowerCase table model serviceTier buckets q).costUsd = rate.applied.cost buckets ∧
      (priceAt toLowerCase table model serviceTier buckets q).costSource = .modelPriced := by
  rw [priceAt_of_some hbase, requestRate_eq_some.2 ⟨rate, h, hlacks, rfl⟩]
  exact ⟨rfl, rfl⟩

theorem priceAt_nil (q : ℚ≥0) : (priceAt toLowerCase table model serviceTier (summed []) q).costUsd = 0 := by
  rcases Option.eq_none_or_eq_some (table.bind (fun t => lookupRate toLowerCase t model)) with hbase | ⟨base, hbase⟩
  · rw [priceAt_of_none hbase]
  · rw [priceAt_of_some hbase]
    split
    · exact cost_summed _ []
    · rfl

end Sum

/-- **Summed records cost what they cost one by one**, at any size of a range that selects one size tier. -/
theorem priceUsage_summed (toLowerCase : Text → Text) (table : Option RateTable) (model : Option Text) (serviceTier : TierField)
    (range : InputRange) (records : List UsageRecord)
    (hsame : sameRequestInputTier toLowerCase table model range.min range.max = true)
    (hin : ∀ r ∈ records, range.min ≤ r.requestInputTokens ∧ (r.requestInputTokens : ℚ) ≤ range.max)
    (hpriced : ∀ r ∈ records,
      (priceAt toLowerCase table model serviceTier r.buckets r.requestInputTokens).costSource = .modelPriced)
    (size : ℚ≥0) (hsize : range.min ≤ size ∧ (size : ℚ) ≤ range.max) :
    (priceAt toLowerCase table model serviceTier (summed records) size).costUsd =
        (records.map (fun r => (priceAt toLowerCase table model serviceTier r.buckets r.requestInputTokens).costUsd)).sum ∧
      (records ≠ [] → (priceAt toLowerCase table model serviceTier (summed records) size).costSource = .modelPriced) := by
  rcases records.eq_nil_or_concat' with rfl | ⟨_, first, hlist⟩
  · exact ⟨priceAt_nil size, fun hne => absurd rfl hne⟩
  have hfirst : first ∈ records := hlist ▸ List.mem_append_right _ (List.mem_singleton_self _)
  obtain ⟨base, hbase⟩ : ∃ base, table.bind (fun t => lookupRate toLowerCase t model) = some base := by
    rcases Option.eq_none_or_eq_some (table.bind (fun t => lookupRate toLowerCase t model)) with hnone | hsome
    · have hcontra := hpriced first hfirst
      rw [priceAt_of_none hnone] at hcontra
      cases hcontra
    · exact hsome
  have houtside := threshold_outside hbase hsame
  obtain ⟨rate, hrate, -⟩ := priceAt_modelPriced hbase (hpriced first hfirst)
  -- every record is priced at the rate of the first
  have heach : ∀ r ∈ records, PricedBy base serviceTier r.requestInputTokens rate ∧ rate.lacks r.buckets = false := by
    intro r hr
    obtain ⟨rate', hrate', hlacks⟩ := priceAt_modelPriced hbase (hpriced r hr)
    have hsame' := hrate.at (hin first hfirst) (hin r hr) houtside
    exact ⟨hsame', Option.some.inj (hsame'.2.symm.trans hrate'.2) ▸ hlacks⟩
  have hsum := priceAt_eq hbase (hrate.at (hin first hfirst) hsize houtside) (lacks_summed (fun r hr => (heach r hr).2))
  refine ⟨?_, fun _ => hsum.2⟩
  calc (priceAt toLowerCase table model serviceTier (summed records) size).costUsd
      = rate.applied.cost (summed records) := hsum.1
    _ = (records.map (fun r => rate.applied.cost r.buckets)).sum := cost_summed _ records
    _ = (records.map (fun r => (priceAt toLowerCase table model serviceTier r.buckets r.requestInputTokens).costUsd)).sum :=
        congrArg List.sum (List.map_congr_left (fun r hr => ((priceAt_eq hbase (heach r hr).1 (heach r hr).2).1).symm))

def tieredRates : RateTable := OrdMap.empty.set (ascii "m") ⟨2, 3, 1 / 5, 5 / 2, [⟨defaultTier, some 200, some ⟨4, 6, none, none⟩⟩]⟩

def largeRequests : List UsageRecord := [⟨⟨300, 0, 0, 10⟩, 300⟩, ⟨⟨250, 0, 0, 20⟩, 250⟩]

theorem priceUsage_summed_large : (priceAt id tieredRates (ascii "m") .absent (summed largeRequests) 300).costUsd = 2380 ∧
    (priceAt id tieredRates (ascii "m") .absent (summed largeRequests) 300).costUsd =
      (largeRequests.map (fun r => (priceAt id tieredRates (ascii "m") .absent r.buckets r.requestInputTokens).costUsd)).sum := by
  have h := priceUsage_summed id tieredRates (ascii "m") .absent ⟨201, 300⟩ largeRequests (by decide +kernel)
    (by decide +kernel) (by decide +kernel) 300 (by decide +kernel)
  exact ⟨by decide +kernel, h.1⟩

end Wollipog.Usage

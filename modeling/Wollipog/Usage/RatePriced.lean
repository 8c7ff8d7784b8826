import Wollipog.Lib.Grouped
import Wollipog.Lib.OrdMap
import Wollipog.Lib.JsonRead
/-!
# RatePriced — usage the control plane prices from its rate table

The runner accrues such records into cumulative entries, one for each pricing key; the control plane books what they
have beyond those it ingested.
-/
namespace Wollipog.Usage

open Json (Text CodeUnit)

/-! ## Records -/

inductive LiveUsage
  | provisional | republished | settled
  deriving DecidableEq

/-- `pricingContext?.serviceTier` -/
inductive TierField
  | absent
  | text (s : Text)
  | other

/-- A `token_usage` payload. A number is `none` where the field holds no finite number. -/
structure TokenUsage where
  inputTokens : Option ℚ
  outputTokens : Option ℚ
  cachedInputTokens : Option ℚ
  cacheCreationInputTokens : Option ℚ
  reasoningOutputTokens : Option ℚ
  model : Option Text
  costUsd : Option ℚ
  accountingIncomplete : Bool
  liveUsage : Option LiveUsage
  independentUsage : Bool
  serviceTier : TierField
  requestInputTokens : Option ℚ
  parentToolUseId : Option Text

inductive SessionEventPayload
  | tokenUsage (u : TokenUsage)
  | other

inductive RatePricedUsageBucket
  | inputTokens | netInputTokens | outputTokens | cachedInputTokens | cacheCreationInputTokens | reasoningOutputTokens
  deriving DecidableEq

/-- The cumulative counters, by `RATE_PRICED_USAGE_BUCKETS`. -/
abbrev Counts := RatePricedUsageBucket → Nat

@[ext]
structure InputRange where
  min : ℚ
  max : ℚ
  deriving DecidableEq

@[ext]
structure RatePricedUsageTotal where
  model : Option Text
  serviceTier : Option Text
  requestInputTokens : Option InputRange
  count : Counts

def ratePricedUsageMaxEntries : Nat := 32
def maxTokens : Nat := 1000000000000

/-- `<invalid>` -/
def invalidServiceTier : Text := [60, 105, 110, 118, 97, 108, 105, 100, 62]

def tokenCount (value : Option ℚ) : Nat := value.elim 0 (fun q => if 0 ≤ q then min q.floor.toNat maxTokens else 0)

/-- The units that `trim` removes. -/
def isTrimmed (c : CodeUnit) : Bool :=
  decide (0x09 ≤ c.val ∧ c.val ≤ 0x0d) || c.val == 0x20 || c.val == 0xa0 || c.val == 0x1680 ||
    decide (0x2000 ≤ c.val ∧ c.val ≤ 0x200a) || c.val == 0x2028 || c.val == 0x2029 || c.val == 0x202f || c.val == 0x205f ||
    c.val == 0x3000 || c.val == 0xfeff

def trim (s : Text) : Text := (s.dropWhile isTrimmed).rdropWhile isTrimmed

def boundedText (value : Option Text) (limit : Nat) : Option Text :=
  value.bind (fun s => if ((trim s).take limit).isEmpty then none else some ((trim s).take limit))

def TierField.bounded : TierField → Option Text
  | .absent => none
  | .text s => some (s.take 64)
  | .other => some invalidServiceTier

def usable (value : Option ℚ) : Option ℚ := value.filter (fun q => decide (0 ≤ q))

def TokenUsage.counts (u : TokenUsage) : Counts
  | .inputTokens => tokenCount u.inputTokens
  | .netInputTokens => tokenCount u.inputTokens - tokenCount u.cachedInputTokens
  | .outputTokens => tokenCount u.outputTokens
  | .cachedInputTokens => tokenCount u.cachedInputTokens
  | .cacheCreationInputTokens => tokenCount u.cacheCreationInputTokens
  | .reasoningOutputTokens => min (tokenCount u.outputTokens) (tokenCount u.reasoningOutputTokens)

def carriesTokens (c : Counts) : Bool :=
  decide (0 < c .inputTokens) || decide (0 < c .outputTokens) || decide (0 < c .cachedInputTokens) ||
    decide (0 < c .cacheCreationInputTokens)

/-- The pricing key and buckets of a record that is rate-priced into the session total. -/
def ratePricedUsageRecord : SessionEventPayload → Option RatePricedUsageTotal
  | .other => none
  | .tokenUsage u =>
    if u.parentToolUseId.any (fun id => !id.isEmpty) && !u.independentUsage then none
    else if u.liveUsage = some .provisional || u.accountingIncomplete then none
    else if (usable u.costUsd).isSome then none
    else if !carriesTokens u.counts then none
    else some {
      model := boundedText u.model 128
      serviceTier := u.serviceTier.bounded
      requestInputTokens := (usable u.requestInputTokens).map (fun q => ⟨q, q⟩)
      count := u.counts }

def textOrNull (s : Option Text) : Json.Value := s.elim .null .string

/-- `[entry.model ?? null, entry.serviceTier ?? null, entry.requestInputTokens !== undefined]` -/
def keyValue (entry : RatePricedUsageTotal) : Json.Value :=
  .array [textOrNull entry.model, textOrNull entry.serviceTier, .bool entry.requestInputTokens.isSome]

def ratePricedUsageKey (entry : RatePricedUsageTotal) : Text := Json.stringify (keyValue entry)

def InputRange.join (a b : InputRange) : InputRange := ⟨Min.min a.min b.min, Max.max a.max b.max⟩

/-- The entry of a key once `record` is added. -/
def RatePricedUsageTotal.join (prior record : RatePricedUsageTotal) : RatePricedUsageTotal where
  model := prior.model
  serviceTier := prior.serviceTier
  requestInputTokens := prior.requestInputTokens.bind (fun a => record.requestInputTokens.map (fun b => a.join b))
  count := fun bucket => min (prior.count bucket + record.count bucket) maxTokens

/-- `none` when a new key would exceed `RATE_PRICED_USAGE_MAX_ENTRIES`. -/
def accrueRatePricedUsage (totals : List RatePricedUsageTotal) (payload : SessionEventPayload) :
    Option (List RatePricedUsageTotal) :=
  match ratePricedUsageRecord payload with
  | none => some totals
  | some record =>
    Grouped.add ratePricedUsageKey RatePricedUsageTotal.join ratePricedUsageMaxEntries totals record

def accrued (payloads : List SessionEventPayload) : Option (List RatePricedUsageTotal) :=
  payloads.foldlM accrueRatePricedUsage []

def records (payloads : List SessionEventPayload) : List RatePricedUsageTotal := payloads.filterMap ratePricedUsageRecord

structure Ingested where
  rows : OrdMap Text Counts
  complete : Bool

def Ingested.empty : Ingested := ⟨OrdMap.empty, true⟩

def Ingested.seen (c : Ingested) (key : Text) : Counts := (c.rows.get key).getD (fun _ => 0)

def countRatePricedUsageInTransaction (c : Ingested) (record : RatePricedUsageTotal) : Ingested :=
  if (c.rows.get (ratePricedUsageKey record)).isNone ∧ ratePricedUsageMaxEntries * 2 ≤ c.rows.size then
    { c with complete := false }
  else
    { c with
      rows := c.rows.set (ratePricedUsageKey record) (fun bucket => c.seen (ratePricedUsageKey record) bucket + record.count bucket) }

def ingested (payloads : List SessionEventPayload) : Ingested :=
  (records payloads).foldl countRatePricedUsageInTransaction Ingested.empty

def missing (c : Ingested) (entry : RatePricedUsageTotal) : Counts :=
  fun bucket => entry.count bucket - c.seen (ratePricedUsageKey entry) bucket

/-- What the entries of a snapshot have beyond the counts, `none` where the keys would be too many. -/
def ratePricedResiduals (entries : List RatePricedUsageTotal) (c : Ingested) : Option (List (RatePricedUsageTotal × Counts)) :=
  if ratePricedUsageMaxEntries * 2 <
      c.rows.size + (entries.filter (fun e => (c.rows.get (ratePricedUsageKey e)).isNone)).length then none
  else some ((entries.map (fun e => (e, missing c e))).filter (fun r => carriesTokens r.2))

end Wollipog.Usage

import Mathlib
import Wollipog.Lib.OrdMap
/-!
# Accounting — Claude's cumulative usage, and the requests seen live

A result carries totals since its scope began; what it adds to the baseline is emitted. Requests are also published
while a turn runs, and their window is closed by totals.
-/
namespace Wollipog.Claude

inductive Scope
  | process
  | conversation
deriving DecidableEq

structure ModelUsage where
  canonicalModel : Option String
  thinkingTokens : Option ℚ
  inputTokens : ℚ
  outputTokens : ℚ
  cacheReadInputTokens : ℚ
  cacheCreationInputTokens : ℚ
  costUSD : Option ℚ
deriving DecidableEq

structure ClaudeUsageCheckpoint where
  sessionId : String
  totalCostUsd : ℚ
  models : OrdMap String ModelUsage
  accountingScope : Option Scope

inductive LiveUsage
  | provisional
  | republished
  | settled
deriving DecidableEq

structure PricingContext where
  requestInputTokens : ℚ
  serviceTier : Option String
deriving DecidableEq

/-- A `token_usage` event; a member is `none` or `false` where the event leaves it out. -/
structure UsageEvent where
  model : Option String
  inputTokens : Option ℚ
  outputTokens : Option ℚ
  cachedInputTokens : Option ℚ
  cacheCreationInputTokens : Option ℚ
  reasoningOutputTokens : Option ℚ
  costUsd : Option ℚ
  costIsEstimate : Bool
  pricingContext : Option PricingContext
  accountingIncomplete : Bool
  liveUsage : Option LiveUsage
deriving DecidableEq

def UsageEvent.bare : UsageEvent := ⟨none, none, none, none, none, none, none, false, none, false, none⟩

/-- What the provider reports of a model; a number is `none` where there is no finite one. -/
structure RawModelUsage where
  canonicalModel : Option String
  thinkingTokens : Option ℚ
  inputTokens : Option ℚ
  outputTokens : Option ℚ
  cacheReadInputTokens : Option ℚ
  cacheCreationInputTokens : Option ℚ
  costBasis : Option String
  costUSD : Option ℚ

structure RawTurnUsage where
  inputTokens : Option ℚ
  outputTokens : Option ℚ
  cacheReadInputTokens : Option ℚ
  cacheCreationInputTokens : Option ℚ

/-- A `result` message; an entry of its map is `none` where it is no object. -/
structure RawResult where
  subtype : Option String
  totalCostUsd : Option ℚ
  modelUsage : OrdMap String (Option RawModelUsage)
  usage : RawTurnUsage

structure ClaudeRequestUsage where
  model : String
  inputTokens : Option ℚ
  outputTokens : Option ℚ
  cacheReadInputTokens : Option ℚ
  cacheCreationInputTokens : Option ℚ
  thinkingTokens : Option ℚ
  serviceTier : Option String

/-! ## Reading a result -/

def count (value : Option ℚ) : ℚ := max 0 (value.getD 0)

def cost (value : Option ℚ) : Option ℚ := value.filter (fun q => decide (0 ≤ q))

theorem count_nonneg (value : Option ℚ) : 0 ≤ count value := le_max_left _ _

def leadingNumber (s : List Char) : Option (Nat × List Char) :=
  if (s.takeWhile Char.isDigit).isEmpty then none
  else some ((s.takeWhile Char.isDigit).foldl (fun n c => 10 * n + (c.toNat - '0'.toNat)) 0, s.dropWhile Char.isDigit)

def versionNumbers (version : List Char) : Option (Nat × Nat × Nat) :=
  match leadingNumber version with
  | some (major, '.' :: rest) =>
    match leadingNumber rest with
    | some (minor, '.' :: rest) => (leadingNumber rest).map (fun patch => (major, minor, patch.1))
    | _ => none
  | _ => none

def claudeRestoresUsage (version : Option String) : Option Bool :=
  (version.bind (fun v => versionNumbers v.toList)).map (fun (major, minor, patch) =>
    decide (2 < major) || (decide (major = 2) && (decide (1 < minor) || (decide (minor = 1) && decide (277 ≤ patch)))))

def modelUsage (usage : RawModelUsage) : ModelUsage where
  canonicalModel := usage.canonicalModel.filter (fun s => decide (s ≠ ""))
  thinkingTokens := usage.thinkingTokens.map (fun q => min (count usage.outputTokens) (count (some q)))
  inputTokens := count usage.inputTokens
  outputTokens := count usage.outputTokens
  cacheReadInputTokens := count usage.cacheReadInputTokens
  cacheCreationInputTokens := count usage.cacheCreationInputTokens
  costUSD := if usage.costBasis = some "unknown" then none else cost usage.costUSD

def modelsOf (entries : List (String × Option RawModelUsage)) : OrdMap String ModelUsage :=
  entries.foldl (fun models entry => match entry.2 with | none => models | some usage => models.set entry.1 (modelUsage usage)) OrdMap.empty

def claudeUsageCheckpoint (sessionId : String) (result : RawResult) (restoresUsage : Bool) : Option ClaudeUsageCheckpoint :=
  (cost result.totalCostUsd).map (fun totalCostUsd =>
    ⟨sessionId, totalCostUsd, modelsOf result.modelUsage.entries, some (if restoresUsage then .conversation else .process)⟩)

inductive TokenField
  | inputTokens
  | outputTokens
  | cachedInputTokens
  | cacheCreationInputTokens
deriving DecidableEq

def tokenFields : List TokenField := [.inputTokens, .outputTokens, .cachedInputTokens, .cacheCreationInputTokens]

def UsageEvent.tokens (event : UsageEvent) : TokenField → Option ℚ
  | .inputTokens => event.inputTokens
  | .outputTokens => event.outputTokens
  | .cachedInputTokens => event.cachedInputTokens
  | .cacheCreationInputTokens => event.cacheCreationInputTokens

def ModelUsage.tokens (usage : ModelUsage) : TokenField → ℚ
  | .inputTokens => usage.inputTokens
  | .outputTokens => usage.outputTokens
  | .cachedInputTokens => usage.cacheReadInputTokens
  | .cacheCreationInputTokens => usage.cacheCreationInputTokens

/-- Whether `deltas` account at least every token that the `live` requests observed. -/
def covers (deltas live : List UsageEvent) : Bool :=
  tokenFields.all (fun field =>
    decide ((live.map (fun event => count (event.tokens field))).sum ≤ (deltas.map (fun event => count (event.tokens field))).sum))

/-! ## The class -/

structure ClaudeUsageAccounting where
  checkpoint : Option ClaudeUsageCheckpoint
  restoresUsage : Option Bool
  live : List UsageEvent
  retained : Option ClaudeUsageCheckpoint
  /-- Of a process that has not reported its version: whether it creates its conversation. -/
  pending : Option Bool
  unproven : Bool
  unprobed : Bool

namespace ClaudeUsageAccounting

def construct (restoresUsage : Option Bool) (checkpoint : Option ClaudeUsageCheckpoint) (live : List UsageEvent)
    (republicationInterrupted : Bool) : ClaudeUsageAccounting where
  checkpoint := checkpoint.filter (fun c => decide (c.accountingScope = some (if restoresUsage = some true then .conversation else .process)))
  restoresUsage := restoresUsage
  live := live.filter (fun event => decide (event.liveUsage = some .provisional))
  retained := checkpoint.filter (fun c => decide (c.accountingScope = some .conversation))
  pending := none
  unproven := republicationInterrupted
  unprobed := false

def beginProcess (a : ClaudeUsageAccounting) (newConversation : Bool) : ClaudeUsageAccounting := { a with pending := some newConversation }

def close : List UsageEvent → List UsageEvent
  | [] => [{ UsageEvent.bare with liveUsage := some .settled }]
  | [event] => [{ event with liveUsage := some .settled }]
  | event :: events => event :: close events

def settle (a : ClaudeUsageAccounting) (events : List UsageEvent) : ClaudeUsageAccounting × List UsageEvent :=
  if a.live.isEmpty then (a, events) else ({ a with live := [] }, close events)

def republish (event : UsageEvent) : UsageEvent := { event with liveUsage := some .republished }

def incomplete : UsageEvent := { UsageEvent.bare with accountingIncomplete := true }

def uncertain (a : ClaudeUsageAccounting) : ClaudeUsageAccounting × List UsageEvent := a.settle (a.live.map republish ++ [incomplete])

def accountLive (a : ClaudeUsageAccounting) : ClaudeUsageAccounting × List UsageEvent := a.settle (a.live.map republish)

/-- The scope of a process that reports a version; its report outranks the recorded one. -/
def scopeOf (a : ClaudeUsageAccounting) (version : Option String) : Option Bool := (claudeRestoresUsage version).or a.restoresUsage

/-- A process confirms what its totals are measured from; the baseline is the checkpoint then. -/
def confirmProcess (a : ClaudeUsageAccounting) (sessionId : String) (version : Option String) : ClaudeUsageAccounting × List UsageEvent :=
  match a.pending with
  | none => (a, [])
  | some newConversation =>
    if a.scopeOf version = some false then
      { a with pending := none, restoresUsage := some false, checkpoint := none, unproven := false, unprobed := false }.accountLive
    else if a.scopeOf version = some true ∧ a.restoresUsage = some true then ({ a with pending := none }, [])
    else if newConversation then
      ({ a with
        pending := none
        restoresUsage := a.scopeOf version
        checkpoint := if a.scopeOf version = some true then some ⟨sessionId, 0, OrdMap.empty, some .conversation⟩ else none
        unproven := false
        unprobed := false }, [])
    else if a.scopeOf version = some true ∧ a.retained.map ClaudeUsageCheckpoint.sessionId = some sessionId then
      ({ a with pending := none, restoresUsage := some true, checkpoint := a.retained, unprobed := true }, [])
    else ({ a with pending := none, restoresUsage := a.scopeOf version, checkpoint := none, unproven := true }, [])

def adoptBaseline (a : ClaudeUsageAccounting) (checkpoint : Option ClaudeUsageCheckpoint) : ClaudeUsageAccounting × List UsageEvent :=
  if checkpoint.isSome || a.restoresUsage = some true then { a with checkpoint := checkpoint, unproven := false, unprobed := false }.accountLive
  else { a with checkpoint := checkpoint }.accountLive

def requestEvent (usage : ClaudeRequestUsage) : UsageEvent where
  model := some usage.model
  inputTokens := some (count usage.inputTokens)
  outputTokens := some (count usage.outputTokens)
  cachedInputTokens := some (count usage.cacheReadInputTokens)
  cacheCreationInputTokens := some (count usage.cacheCreationInputTokens)
  reasoningOutputTokens := usage.thinkingTokens.map (fun q => min (count usage.outputTokens) (count (some q)))
  costUsd := none
  costIsEstimate := false
  pricingContext := some
    ⟨count usage.inputTokens + count usage.cacheReadInputTokens + count usage.cacheCreationInputTokens, usage.serviceTier.filter (fun s => decide (s ≠ ""))⟩
  accountingIncomplete := false
  liveUsage := some .provisional

def request (a : ClaudeUsageAccounting) (usage : ClaudeRequestUsage) : ClaudeUsageAccounting × List UsageEvent :=
  if count usage.inputTokens = 0 ∧ count usage.outputTokens = 0 ∧ count usage.cacheReadInputTokens = 0 ∧
      count usage.cacheCreationInputTokens = 0 then (a, [])
  else ({ a with live := a.live ++ [requestEvent usage] }, [requestEvent usage])

/-- `Math.max(0, usage[field] - before[field])` -/
def delta (usage : ModelUsage) (before : Option ModelUsage) (field : ModelUsage → ℚ) : ℚ := max 0 (field usage - (before.elim 0 field))

def deltaCost (usage : ModelUsage) (before : Option ModelUsage) : Option ℚ :=
  if usage.costUSD.isNone || before.any (fun b => b.costUSD.isNone) then none
  else some (delta usage before (fun u => u.costUSD.getD 0))

def deltaEvent (name : String) (usage : ModelUsage) (before : Option ModelUsage) : Option UsageEvent :=
  if delta usage before (·.inputTokens) = 0 ∧ delta usage before (·.outputTokens) = 0 ∧ delta usage before (·.cacheReadInputTokens) = 0 ∧
      delta usage before (·.cacheCreationInputTokens) = 0 ∧ (deltaCost usage before).getD 0 = 0 then none
  else some {
    model := some (usage.canonicalModel.getD name)
    inputTokens := some (delta usage before (·.inputTokens))
    outputTokens := some (delta usage before (·.outputTokens))
    cachedInputTokens := some (delta usage before (·.cacheReadInputTokens))
    cacheCreationInputTokens := some (delta usage before (·.cacheCreationInputTokens))
    reasoningOutputTokens := usage.thinkingTokens.map (fun _ =>
      min (delta usage before (·.outputTokens)) (delta usage before (fun u => u.thinkingTokens.getD 0)))
    costUsd := deltaCost usage before
    costIsEstimate := (deltaCost usage before).isSome
    pricingContext := none
    accountingIncomplete := false
    liveUsage := none }

def deltaEvents (next : OrdMap String ModelUsage) (previous : Option ClaudeUsageCheckpoint) : List UsageEvent :=
  next.entries.filterMap (fun entry => deltaEvent entry.1 entry.2 (previous.bind (fun p => p.models.get entry.1)))

def feeEvents (deltaCost : ℚ) (events : List UsageEvent) : List UsageEvent :=
  if 1 / 1000000000 < deltaCost - (events.map (fun event => event.costUsd.getD 0)).sum ∧ events.all (fun event => event.costUsd.isSome) = true then
    [{ UsageEvent.bare with
      model := some "<provider-fees>"
      costUsd := some (deltaCost - (events.map (fun event => event.costUsd.getD 0)).sum)
      costIsEstimate := true }]
  else []

def turnEvent (usage : RawTurnUsage) (model : Option String) (deltaCost : Option ℚ) : UsageEvent where
  model := model.filter (fun s => decide (s ≠ ""))
  inputTokens := usage.inputTokens
  outputTokens := usage.outputTokens
  cachedInputTokens := usage.cacheReadInputTokens
  cacheCreationInputTokens := usage.cacheCreationInputTokens
  reasoningOutputTokens := none
  costUsd := deltaCost
  costIsEstimate := deltaCost.isSome
  pricingContext := none
  accountingIncomplete := false
  liveUsage := none

def previous (a : ClaudeUsageAccounting) (sessionId : String) : Option ClaudeUsageCheckpoint :=
  a.checkpoint.filter (fun c => decide (c.sessionId = sessionId))

def zeroed (result : RawResult) (next : Option ClaudeUsageCheckpoint) : Bool :=
  decide (result.subtype = some "error_during_execution") && next.any (fun next => decide (next.totalCostUsd = 0) &&
    next.models.entries.all (fun entry => decide (entry.2.inputTokens + entry.2.outputTokens + entry.2.cacheReadInputTokens +
      entry.2.cacheCreationInputTokens = 0)))

def resultEvents (a : ClaudeUsageAccounting) (sessionId : String) (result : RawResult) (model : Option String)
    (next : ClaudeUsageCheckpoint) : List UsageEvent :=
  if next.models.size = 0 then
    [turnEvent result.usage model (some (max 0 (next.totalCostUsd - ((a.previous sessionId).elim 0 (·.totalCostUsd)))))]
  else deltaEvents next.models (a.previous sessionId) ++
    feeEvents (max 0 (next.totalCostUsd - ((a.previous sessionId).elim 0 (·.totalCostUsd)))) (deltaEvents next.models (a.previous sessionId))

def result (a : ClaudeUsageAccounting) (sessionId : String) (result : RawResult) (model : Option String) :
    ClaudeUsageAccounting × List UsageEvent :=
  if zeroed result (claudeUsageCheckpoint sessionId result (a.restoresUsage = some true)) then (a, [incomplete])
  else match claudeUsageCheckpoint sessionId result (a.restoresUsage = some true) with
    | none => (a, [turnEvent result.usage model none])
    | some next =>
      if a.unproven then { a with unproven := false, unprobed := false, checkpoint := some next }.uncertain
      else if (a.previous sessionId).any (fun previous => decide (next.totalCostUsd < previous.totalCostUsd)) then (a, [])
      else if a.unprobed && !covers (a.resultEvents sessionId result model next) a.live then
        { a with checkpoint := some next, unprobed := false }.uncertain
      else { a with checkpoint := some next, unprobed := false }.settle (a.resultEvents sessionId result model next)

end ClaudeUsageAccounting

end Wollipog.Claude

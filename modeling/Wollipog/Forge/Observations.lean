import Wollipog.Lib.JsonRead
import Wollipog.Lib.Lower
import Wollipog.Lib.OrdMap
/-!
# Observations — the last forge reading of each pull request

A row keeps the latest value, the latest failure and the one runner whose login they came through.
-/
namespace Wollipog.Forge

open Json (Text Value Number)

def staleAfterMs : ℤ := 10 * 60000

structure RunnerId where
  text : String
  nonempty : text ≠ ""
deriving DecidableEq

inductive CampaignForgeObservationFailure
  | forge_cli_missing | forge_unauthenticated | forge_unreachable | forge_unsupported | forge_not_found
  | forge_rate_limited | forge_error
deriving DecidableEq

inductive CampaignObservationUnavailableReason
  | failure (reason : CampaignForgeObservationFailure)
  | runner_unsupported | runner_disconnected | not_observed | not_authorized
deriving DecidableEq

inductive ForgeObserverState
  | online | offline | unsupported
deriving DecidableEq

structure CampaignPullRequestRef where
  repository : String
  number : ℕ
deriving DecidableEq

structure Observation (toDouble : Number → Number) where
  members : List (Text × Option Value)
  wf : (Value.object members).Wf toDouble

inductive ForgeFact
  | fresh (value : Value) (observedAt : ℤ)
  | stale (value : Value) (observedAt : ℤ)
  | unavailable (reason : CampaignObservationUnavailableReason) (last : Option (Value × ℤ))

structure ObservationRow where
  runner_id : RunnerId
  value_json : Option Text
  observed_at : Option ℤ
  failure_reason : Option CampaignForgeObservationFailure
  failed_at : Option ℤ

def FAILURES : List CampaignForgeObservationFailure :=
  [.forge_cli_missing, .forge_unauthenticated, .forge_unreachable, .forge_unsupported, .forge_not_found,
    .forge_rate_limited, .forge_error]

theorem mem_failures (reason : CampaignForgeObservationFailure) : reason ∈ FAILURES := by cases reason <;> decide

abbrev RowKey := String × String × ℕ

abbrev Store := OrdMap RowKey ObservationRow

def rowKey (campaignId : String) (ref : CampaignPullRequestRef) : RowKey := (campaignId, Js.lower ref.repository, ref.number)

section Facts

variable (toDouble : Number → Number)

/-- The stored value, `none` where `JSON.parse` throws. -/
def storedValue (row : Option ObservationRow) : Option (Option Value) :=
  match row.bind ObservationRow.value_json with
  | none => some none
  | some [] => some none
  | some (c :: text) => (Json.parse toDouble (c :: text)).map some

def forgeFact (row : Option ObservationRow) (observer : ForgeObserverState) (now : ℤ) : Option ForgeFact :=
  (storedValue toDouble row).map (fun value =>
    let last := value.bind (fun v => (row.bind ObservationRow.observed_at).map (fun observedAt => (v, observedAt)))
    match row.bind ObservationRow.failure_reason with
    | some reason => .unavailable (.failure reason) last
    | none =>
      match last with
      | some (v, observedAt) => if now - observedAt > staleAfterMs then .stale v observedAt else .fresh v observedAt
      | none =>
        .unavailable (match observer with
          | .unsupported => .runner_unsupported
          | .offline => .runner_disconnected
          | .online => .not_observed) none)

def FORGE_NOT_AUTHORIZED : ForgeFact := .unavailable .not_authorized none

def supplier (s : Store) (campaignId : String) (ref : CampaignPullRequestRef) : Option RunnerId :=
  (s.get (rowKey campaignId ref)).map ObservationRow.runner_id

/-- One fact; `observerState` is asked about the lower-case repository. -/
def fact (s : Store) (observerState : String → String → ForgeObserverState) (campaignId : String)
    (ref : CampaignPullRequestRef) (now : ℤ) : Option ForgeFact :=
  forgeFact toDouble (s.get (rowKey campaignId ref)) (observerState campaignId (Js.lower ref.repository)) now

inductive Principal
  | agent
  | human (canAccessRunner : RunnerId → Bool) (forgeVisible : String → Bool)

def forgeFactVisible (s : Store) (campaignId : String) (principal : Principal) (ref : CampaignPullRequestRef) : Bool :=
  match principal with
  | .agent => true
  | .human canAccessRunner forgeVisible =>
    match supplier s campaignId ref with
    | some runner => canAccessRunner runner
    | none => forgeVisible ref.repository

def forgeFactForPrincipal (s : Store) (observerState : String → String → ForgeObserverState) (campaignId : String)
    (principal : Principal) (ref : CampaignPullRequestRef) (now : ℤ) : Option ForgeFact :=
  if forgeFactVisible s campaignId principal ref then fact toDouble s observerState campaignId ref now
  else some FORGE_NOT_AUTHORIZED

end Facts

variable {toDouble : Number → Number}

/-- `JSON.stringify` of an observation. -/
def Observation.json (o : Observation toDouble) : Text := Json.stringify (.object o.members)

structure ForgeReadResult (toDouble : Number → Number) where
  ref : CampaignPullRequestRef
  observation : Option (Observation toDouble)
  failure : Option CampaignForgeObservationFailure

/-- One call of `record`. -/
structure Call (toDouble : Number → Number) where
  campaignId : String
  runnerId : RunnerId
  results : List (ForgeReadResult toDouble)
  at_ : ℤ

/-- The insert of an observation and its update on conflict, which write the same row. -/
def observedRow (runnerId : RunnerId) (json : Text) (at_ : ℤ) : ObservationRow where
  runner_id := runnerId
  value_json := some json
  observed_at := some at_
  failure_reason := none
  failed_at := none

/-- The insert of a failure, and its update on conflict: the last value stays where it is the same runner's. -/
def failedRow (before : Option ObservationRow) (runnerId : RunnerId) (reason : CampaignForgeObservationFailure) (at_ : ℤ) :
    ObservationRow where
  runner_id := runnerId
  value_json := before.bind (fun row => if row.runner_id = runnerId then row.value_json else none)
  observed_at := before.bind (fun row => if row.runner_id = runnerId then row.observed_at else none)
  failure_reason := some reason
  failed_at := some at_

def recordResult (campaignId : String) (runnerId : RunnerId) (at_ : ℤ) (acc : Store × Bool)
    (result : ForgeReadResult toDouble) : Store × Bool :=
  let key := rowKey campaignId result.ref
  let before := acc.1.get key
  match result.observation with
  | some observation =>
    let json := observation.json
    (acc.1.set key (observedRow runnerId json at_), acc.2 || (match before with
      | none => true
      | some row => decide (row.value_json ≠ some json) || row.failure_reason.isSome || decide (row.runner_id ≠ runnerId)))
  | none =>
    match result.failure with
    | none => acc
    | some reason =>
      if reason ∈ FAILURES then
        (acc.1.set key (failedRow before runnerId reason at_), acc.2 || (match before with
          | none => true
          | some row => decide (row.failure_reason ≠ some reason) || decide (row.runner_id ≠ runnerId)))
      else acc

def record (s : Store) (call : Call toDouble) : Store × Bool :=
  call.results.foldl (recordResult call.campaignId call.runnerId call.at_) (s, false)

def after (calls : List (Call toDouble)) : Store := calls.foldl (fun s call => (record s call).1) OrdMap.empty

end Wollipog.Forge

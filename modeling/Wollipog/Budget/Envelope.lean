import Mathlib.Data.Rat.Defs
import Wollipog.Lib.Js
/-!
# Envelope — the campaign's budget authority

What a person allows a campaign to spend.  Amounts are exact; the counts are the numbers the source checks with
`Number.isSafeInteger`.
-/
namespace Wollipog
namespace Budget

structure ControlledReviewCapability where
  profile : String
  controllerSha256 : String
  executableSha256 : String
  cliVersion : String
  accounting : String
  account : String
  agentId : String
deriving DecidableEq

structure CampaignBudgetAuthority where
  costUsd : Option Rat := none
  toolCalls : Option Int := none
  concurrency : Option Int := none
  acceptedFollowUps : Option Int := none
  checkpointsUsd : Option (List Rat) := none
  controlledReview : Option ControlledReviewCapability := none
deriving DecidableEq

/-- `/^[a-zA-Z0-9_-]{1,100}$/` -/
def agentIdOk (s : String) : Bool :=
  decide (0 < s.toList.length) && decide (s.toList.length ≤ 100) &&
    s.toList.all (fun c => c.isAlphanum || c == '_' || c == '-')

def validControlledReview (concurrency : Option Int) (p : ControlledReviewCapability) : Bool :=
  concurrency.isSome && p.profile == "native_opus_5_5_high_read_only" && p.cliVersion == "2.1.296" &&
    p.accounting == "provider_list_estimate" && p.account == "runner_default_claude" && agentIdOk p.agentId &&
    Js.isSha256Hex p.controllerSha256 && Js.isSha256Hex p.executableSha256

def validCheckpoints (costUsd : Rat) : Option Rat → List Rat → Bool
  | _, [] => true
  | before, v :: vs => decide (0 < v) && decide (v ≤ costUsd) && before.all (fun b => decide (b < v)) &&
      validCheckpoints costUsd (some v) vs

def countAtLeast (least : Int) (n : Option Int) : Bool := n.all (fun v => Js.isSafeInteger v && decide (least ≤ v))

def validCampaignBudgetAuthority (b : CampaignBudgetAuthority) : Bool :=
  b.costUsd.all (fun v => decide (0 < v)) && countAtLeast 1 b.toolCalls && countAtLeast 1 b.concurrency &&
    countAtLeast 0 b.acceptedFollowUps &&
    (b.costUsd.isSome || b.toolCalls.isSome || b.concurrency.isSome || b.acceptedFollowUps.isSome) &&
    b.controlledReview.all (validControlledReview b.concurrency) &&
    b.checkpointsUsd.all (fun vs =>
      match b.costUsd with
      | none => false
      | some cost => decide (vs.length ≤ 100) && validCheckpoints cost none vs)

end Budget
end Wollipog

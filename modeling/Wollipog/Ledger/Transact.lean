import Wollipog.Ledger.Merge
/-!
# Transact — one ledger mutation

A mutation runs in one transaction, and a refusal takes back every write. What would hold an armed merge is read
before and after, and an entry gained refuses the mutation.
-/
namespace Wollipog.Ledger

open Authority (CampaignIssueRef campaignRepositoryLocation)
open Scope (sortBy)
open First (firstBy)

/-! ## Limits and texts -/

def planItemsPerCall : Nat := 100
def workItemsPerCampaign : Nat := 2000
def keyLength : Nat := 256
def titleLength : Nat := 240
def textLength : Nat := 1000
def dependsOnLimit : Nat := 64
def pullRequestsPerStage : Nat := 16

def refShape : String := "\x7brepository: \"owner/repo\" or \"<gitlab-host>/group/project\", number\x7d"

/-- `/[\u0000-\u0008\u000b\u000c\u000e-\u001f\u007f]/u` -/
def isControl (c : Char) : Bool :=
  decide (c.val ≤ 0x08) || c.val == 0x0b || c.val == 0x0c || (decide (0x0e ≤ c.val) && decide (c.val ≤ 0x1f)) || c.val == 0x7f

def boundedText (value : String) (max : Nat) : Bool :=
  decide (0 < Js.utf16Length (Js.trim value)) && decide (Js.utf16Length value ≤ max) && !value.toList.any isControl

def validIssue (issue : CampaignIssueRef) : Bool :=
  (campaignRepositoryLocation issue.repository).isSome && Js.isSafeInteger issue.number && decide (1 ≤ issue.number)

def validQueuePosition (value : Option Int) : Bool := value.all (fun n => Js.isSafeInteger n && decide (0 ≤ n))

def validPullRequests (value : List CampaignPullRequestRef) : Bool := decide (value.length ≤ pullRequestsPerStage) && value.all validIssue

def firstRefusal (checks : List (Bool × LedgerError)) : Option LedgerError := (checks.find? Prod.fst).map Prod.snd

def sortTexts (l : List String) : List String := sortBy (fun a b => decide (a ≤ b)) l

/-- What would hold a merge through one prerequisite: its commitment and the pull requests it names. -/
def signatureEntry (prerequisite : CampaignMergePrerequisite) : String :=
  "|".intercalate (prerequisite.id :: prerequisite.commitment.text ::
    sortTexts (prerequisite.pullRequests.map (fun p => forgeRefKeyOf p.ref)))

structure ArmedSignature where
  pullRequest : CampaignPullRequestRef
  signature : List String
deriving DecidableEq

/-- The merge prerequisites of an armed merge's pull request. -/
def armedPrerequisites (t : Tables) (h : Hooks) (campaignId : String) (merge : ArmedMerge) : List CampaignMergePrerequisite :=
  prerequisitesForMerge t h campaignId merge.pullRequest (t.openAttemptItemFor campaignId merge.sessionId)

def armedMergeSignatures (t : Tables) (h : Hooks) (campaignId : String) (merges : OrdMap String ArmedMerge) :
    OrdMap String ArmedSignature where
  entries := merges.entries.map (fun merge =>
    (merge.1, ⟨merge.2.pullRequest, firstBy id ((armedPrerequisites t h campaignId merge.2).map signatureEntry)⟩))
  nodup := by
    rw [List.map_map]
    exact merges.nodup

def itemKey (t : Tables) (itemId : String) : String :=
  ((t.items.find? (fun r => r.id == itemId)).map ItemRow.itemKey).getD itemId

def holdAdded (t : Tables) (pullRequest : CampaignPullRequestRef) (gained : String) : LedgerError :=
  fail ("This change would add a hold to the merge of " ++ pullRequest.repository ++ "#" ++ toString pullRequest.number ++
    " (prerequisite " ++ itemKey t (String.ofList ((Js.splitAt (· == '|') gained.toList).head?.getD [])) ++
    "), but that merge is already armed and nothing could hold it now. Make the change after that merge settles.") 409

/-- The refusal of a mutation after which an armed merge has an entry it did not have before. -/
def armedRefusal (t : Tables) (armed after : OrdMap String ArmedSignature) : Option LedgerError :=
  after.entries.findSome? (fun now =>
    (now.2.signature.find? (fun entry => !((armed.get now.1).any (fun before => before.signature.contains entry)))).map
      (holdAdded t now.2.pullRequest))

def transact {α : Type} (h : Hooks) (campaignId : String) (work : Ledger α) : Ledger α :=
  Tx.atomic (do
    let before ← Tx.read
    let merges := h.armedMerges campaignId
    let result ← work
    let after ← Tx.read
    Tx.refuseIf (armedRefusal after (armedMergeSignatures before h campaignId merges) (armedMergeSignatures after h campaignId merges))
    pure result)

variable {α : Type} {h : Hooks} {campaignId : String} {t u : Tables}

/-- **An accepted mutation** did its work, and gave no armed merge an entry it did not have. -/
theorem transact_ok {work : Ledger α} {a : α} (hok : transact h campaignId work t = (.ok a, u)) :
    work t = (.ok a, u) ∧ armedRefusal u (armedMergeSignatures t h campaignId (h.armedMerges campaignId))
      (armedMergeSignatures u h campaignId (h.armedMerges campaignId)) = none := by
  unfold transact at hok
  rw [Tx.atomic_ok] at hok
  replace hok := Tx.bind_read_ok.1 hok
  obtain ⟨result, t₂, hwork, hok⟩ := Tx.bind_ok.1 hok
  replace hok := Tx.bind_read_ok.1 hok
  obtain ⟨hnone, hok⟩ := Tx.bind_refuseIf_ok.1 hok
  obtain ⟨rfl, rfl⟩ := Tx.pure_ok.1 hok
  exact ⟨hwork, hnone⟩

/-- **A refused mutation** leaves every table as it was. -/
theorem transact_error {work : Ledger α} {e : LedgerError}
    (herror : transact h campaignId work t = (.error e, u)) : u = t := Tx.atomic_error herror

end Wollipog.Ledger

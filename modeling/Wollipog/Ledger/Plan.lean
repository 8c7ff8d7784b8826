import Wollipog.Ledger.Transact
/-!
# Plan — recording the plan of a campaign

A plan call creates and revises items, replaces dependencies together and records which items fix an issue.
-/
namespace Wollipog.Ledger

open Authority (CampaignIssueRef campaignRepositoryLocation)

/-! ## Dependencies -/

def dependencyEdges (t : Tables) (campaignId : String) : OrdMap String (List String) :=
  (t.dependencies.filter (fun d => (t.item campaignId d.workItemId).isSome)).foldl (fun edges d =>
    edges.set d.workItemId ((edges.get d.workItemId).getD [] ++ [d.dependsOnId])) .empty

/-- Visits an item; the items being visited are all different, so the fuel of `hasCycle` never runs out. -/
def visit (edges : String → List String) : Nat → List String → List String → String → Bool × List String
  | 0, _, finished, _ => (false, finished)
  | fuel + 1, visiting, finished, id =>
    if finished.contains id then (false, finished)
    else if visiting.contains id then (true, finished)
    else
      let below := (edges id).foldl (fun (found : Bool × List String) next =>
        if found.1 then found else visit edges fuel (id :: visiting) found.2 next) (false, finished)
      (below.1, if below.1 then below.2 else id :: below.2)

def hasCycle (edges : OrdMap String (List String)) : Bool :=
  let fuel := edges.keys.length + (edges.entries.flatMap Prod.snd).length + 1
  (edges.keys.foldl (fun (found : Bool × List String) id =>
    if found.1 then found else visit (fun id => (edges.get id).getD []) fuel [] found.2 id) (false, [])).1

structure Replacement where
  itemId : String
  label : String
  dependsOn : List String
deriving DecidableEq

def missingItemIds (t : Tables) (campaignId : String) (ids : List String) : List String :=
  ids.filter (fun id => (t.item campaignId id).isNone)

def sameSet (a b : List String) : Bool := decide ("\n".intercalate (sortTexts a) = "\n".intercalate (sortTexts b))

/-- A new dependency is a promise to hold this item's merge, which an already armed enqueue would not keep. -/
def addsToArmed (t : Tables) (h : Hooks) (itemId : String) (before unique : List String) : Bool :=
  let session := if unique.any (fun id => !before.contains id) then (t.openAttemptForItem itemId).bind AttemptRow.sessionId else none
  session.any h.armedMerge

def replaceOne (t : Tables) (h : Hooks) (campaignId : String) (acc : OrdMap String (List String) × List String)
    (r : Replacement) : Except LedgerError (OrdMap String (List String) × List String) :=
  let unique := First.firstBy id r.dependsOn
  let before := (acc.1.get r.itemId).getD []
  let missing := missingItemIds t campaignId unique
  if dependsOnLimit < unique.length then
    .error (fail (r.label ++ ": an item may depend on at most " ++ toString dependsOnLimit ++ " items") 400)
  else if unique.contains r.itemId then .error (fail (r.label ++ ": an item cannot depend on itself") 409)
  else if !missing.isEmpty then
    .error (fail (r.label ++ ": unknown work items: " ++ ", ".intercalate (missing.take 8)) 404)
  else if sameSet before unique then .ok acc
  else if addsToArmed t h r.itemId before unique then
    .error (fail (r.label ++ ": its child has already armed its approved merge, which a new dependency could not hold. " ++
      "Record dependencies before a merge is armed; after this merge settles, record it again if it still applies.") 409)
  else .ok (acc.1.set r.itemId unique, acc.2 ++ [r.itemId])

def replaceAll (t : Tables) (h : Hooks) (campaignId : String) : List Replacement → OrdMap String (List String) × List String →
    Except LedgerError (OrdMap String (List String) × List String)
  | [], acc => .ok acc
  | r :: rs, acc =>
    match replaceOne t h campaignId acc r with
    | .error e => .error e
    | .ok acc => replaceAll t h campaignId rs acc

def writeDependencies (edges : OrdMap String (List String)) (changed : List String) (t : Tables) : Tables :=
  changed.foldl (fun t itemId => t.setDependencies itemId ((edges.get itemId).getD [])) t

def replaceDependencies (h : Hooks) (campaignId : String) (replacements : List Replacement) : Ledger (List String) := do
  let t ← Tx.read
  match replaceAll t h campaignId replacements (dependencyEdges t campaignId, []) with
  | .error e => Tx.refuse e
  | .ok (edges, changed) =>
    Tx.refuseIf (if !changed.isEmpty && hasCycle edges then some (fail "the dependencies would create a cycle" 409) else none)
    Tx.write (writeDependencies edges changed)
    pure changed

def followUpRevision (h : Hooks) (campaignId : String) (item : ItemRow) (title : Option String) (issue : Option CampaignIssueRef) :
    Option LedgerError :=
  if item.origin ≠ .followUp ∨ title = item.title ∧ issue = item.issue then none
  else (h.reviseFollowUp campaignId item.id ⟨title, issue⟩).map (fun refused => .refusal refused.error 409 refused.details)

/-- Retargeting dispatched work is a dispatch for its new issue, checked the same way. -/
def retargetRefusal (t : Tables) (h : Hooks) (campaignId : String) (item : ItemRow) (issue : Option CampaignIssueRef) :
    Option LedgerError :=
  if issue = item.issue ∨ t.openAttemptForItem item.id = none then none
  else (h.admitDispatch campaignId issue).map (fun outside =>
    fail ("work item " ++ item.itemKey ++ " has an open attempt, so it cannot be retargeted: " ++ outside) 409)

structure PlanItemInput where
  key : String
  title : Option String
  issue : Option (Option CampaignIssueRef)
  origin : Option WorkItemOrigin
  dispatchState : Option DispatchState
  queuePosition : Option (Option Int)
  dependsOnKeys : Option (List String)
deriving DecidableEq

structure FixedByLink where
  issue : CampaignIssueRef
  workItemKeys : List String
deriving DecidableEq

structure RecordCampaignPlanRequest where
  items : List PlanItemInput
  planComplete : Bool
  fixedBy : Option (List FixedByLink)
deriving DecidableEq

structure PlanItemResult where
  key : String
  workItemId : String
  created : Bool
deriving DecidableEq

structure RecordCampaignPlanResponse where
  revision : Nat
  planState : PlanState
  items : List PlanItemResult
deriving DecidableEq

def planItemRefusal (index : Nat) (keys : List String) (input : PlanItemInput) : Option LedgerError :=
  let at_ := "items[" ++ toString index ++ "]"
  firstRefusal [
    (!boundedText input.key keyLength, fail (at_ ++ ".key is required and must be at most " ++ toString keyLength ++ " characters") 400),
    (keys.contains input.key, fail (at_ ++ ".key repeats " ++ input.key) 400),
    (input.title.any (fun title => !boundedText title titleLength),
      fail (at_ ++ ".title must be at most " ++ toString titleLength ++ " characters") 400),
    (input.issue.any (fun issue => issue.any (fun issue => !validIssue issue)), fail (at_ ++ ".issue must be " ++ refShape) 400),
    (input.queuePosition.any (fun position => !validQueuePosition position),
      fail (at_ ++ ".queuePosition must be a non-negative integer or null") 400),
    (input.dependsOnKeys.any (fun keys => decide (dependsOnLimit < keys.length) || !keys.all (fun key => boundedText key keyLength)),
      fail (at_ ++ ".dependsOnKeys must list at most " ++ toString dependsOnLimit ++ " keys") 400)]

def planItemsRefusal : Nat → List String → List PlanItemInput → Option LedgerError
  | _, _, [] => none
  | index, keys, input :: inputs =>
    match planItemRefusal index keys input with
    | some e => some e
    | none => planItemsRefusal (index + 1) (keys ++ [input.key]) inputs

def planRefusal (t : Tables) (campaignId actorSessionId : String) (request : RecordCampaignPlanRequest) : Option LedgerError :=
  (firstRefusal [
    (decide (planItemsPerCall < request.items.length),
      fail ("a plan call accepts at most " ++ toString planItemsPerCall ++ " items") 400),
    (request.fixedBy.any (fun links => decide (100 < links.length) || links.any (fun link => !validIssue link.issue ||
        link.workItemKeys.isEmpty || decide (100 < link.workItemKeys.length) ||
        !link.workItemKeys.all (fun key => boundedText key keyLength))),
      fail "fixedBy must name issues and 1–100 work item keys" 400),
    (request.fixedBy.any (fun links => !links.isEmpty) &&
        (decide (actorSessionId ≠ campaignId) || t.attempts.any (fun a => a.campaignSessionId == campaignId)),
      fail "fixedBy relationships require the root's plan before any campaign dispatch" 409)]).or
    (planItemsRefusal 0 [] request.items)

/-! ## The mutation -/

section

variable (h : Hooks) (campaignId actorSessionId : String) (now : Int)

def newPlanItem (input : PlanItemInput) (id : String) : ItemRow where
  id := id
  campaignSessionId := campaignId
  itemKey := input.key
  title := input.title.map Js.trim
  issue := input.issue.getD none
  origin := input.origin.getD .original
  generation := if input.origin.getD .original = .followUp then 1 else 0
  dispatchState := input.dispatchState.getD .planned
  queuePosition := input.queuePosition.getD none
  commitment := .committed
  commitmentReason := none
  commitmentChangedAt := now
  commitmentChangedBy := some actorSessionId
  stage := none
  blocker := none
  nextAction := none
  createdBySessionId := some actorSessionId
  createdAt := now
  updatedAt := now

def revisedPlanItem (input : PlanItemInput) (existing : ItemRow) : ItemRow :=
  { existing with
    title := (input.title.map (fun title => some (Js.trim title))).getD existing.title
    issue := input.issue.getD existing.issue
    dispatchState := input.dispatchState.getD existing.dispatchState
    queuePosition := input.queuePosition.getD existing.queuePosition }

def createPlanItem (uuid : Uuid) (input : PlanItemInput) : Ledger (PlanItemResult × Bool) := do
  let row := newPlanItem campaignId actorSessionId now input (newId "cwi_" uuid)
  Tx.refuseIf (if row.origin = .followUp then
      (h.acceptFollowUp campaignId row.id (.workItem input.key) ⟨row.title, row.issue⟩).map (fun refused =>
        .refusal refused.error 409 refused.details)
    else none)
  insertItem row
  pure (⟨input.key, row.id, true⟩, true)

def revisePlanItem (input : PlanItemInput) (existing : ItemRow) : Ledger (PlanItemResult × Bool) := do
  Tx.refuseIf (if input.origin.any (fun origin => decide (origin ≠ existing.origin)) then
      some (fail ("item " ++ input.key ++ " already has origin " ++ existing.origin.text) 409)
    else none)
  let next := revisedPlanItem input existing
  let t ← Tx.read
  Tx.refuseIf ((followUpRevision h campaignId existing next.title next.issue).or (retargetRefusal t h campaignId existing next.issue))
  if next = existing then pure (⟨input.key, existing.id, false⟩, false)
  else do
    Tx.write (Tables.reviseItem existing.id true (fun row => { revisedPlanItem input row with updatedAt := now }))
    pure (⟨input.key, existing.id, false⟩, true)

def planItem (uuid : Uuid) (input : PlanItemInput) : Ledger (PlanItemResult × Bool) := do
  let t ← Tx.read
  match t.itemByKey campaignId input.key with
  | none => createPlanItem h campaignId actorSessionId now uuid input
  | some existing => revisePlanItem h campaignId now input existing

def planItems (uuids : Nat → Uuid) : Nat → List PlanItemInput → Ledger (List PlanItemResult × Bool)
  | _, [] => pure ([], false)
  | index, input :: inputs => do
    let first ← planItem h campaignId actorSessionId now (uuids index) input
    let rest ← planItems uuids (index + 1) inputs
    pure (first.1 :: rest.1, first.2 || rest.2)

def idsOfKeys (t : Tables) : List String → Except String (List String)
  | [] => .ok []
  | key :: keys =>
    match t.itemByKey campaignId key, idsOfKeys t keys with
    | none, _ => .error key
    | some _, .error missing => .error missing
    | some item, .ok ids => .ok (item.id :: ids)

def planReplacements (t : Tables) : List PlanItemInput → Except LedgerError (List Replacement)
  | [] => .ok []
  | input :: inputs =>
    match input.dependsOnKeys with
    | none => planReplacements t inputs
    | some keys =>
      match idsOfKeys campaignId t keys with
      | .error key => .error (fail ("item " ++ input.key ++ " depends on unknown key " ++ key) 400)
      | .ok ids =>
        match t.itemByKey campaignId input.key, planReplacements t inputs with
        | some item, .ok replacements => .ok (⟨item.id, "item " ++ input.key, ids⟩ :: replacements)
        | none, _ => .error .constraint
        | _, .error e => .error e

def insertFixedBy (row : FixedByRow) (t : Tables) : Tables := { t with fixedBy := t.fixedBy ++ [row] }

def recordFixedBy (link : FixedByLink) : Ledger Bool := do
  let t ← Tx.read
  match idsOfKeys campaignId t link.workItemKeys with
  | .error key => Tx.refuse (fail ("fixedBy cites missing work item " ++ key) 400)
  | .ok ids =>
    let ids := sortTexts (First.firstBy id ids)
    let repository := Js.lower link.issue.repository
    match t.fixedByItems campaignId repository link.issue.number with
    | some previous =>
      Tx.refuseIf (if previous = ids then none else some (fail "fixedBy relationships are immutable" 409))
      pure false
    | none => do
      Tx.write (insertFixedBy ⟨campaignId, repository, link.issue.number, ids⟩)
      pure true

def recordFixedByAll : List FixedByLink → Ledger Bool
  | [] => pure false
  | link :: links => do
    let first ← recordFixedBy campaignId link
    let rest ← recordFixedByAll links
    pure (first || rest)

def touchAll (ids : List String) (t : Tables) : Tables := ids.foldl (fun t id => t.touchItem id now) t

def planStateOf (request : RecordCampaignPlanRequest) : PlanState := if request.planComplete then .recorded else .partly

def planWork (uuids : Nat → Uuid) (request : RecordCampaignPlanRequest) : Ledger RecordCampaignPlanResponse := do
  let t ← Tx.read
  let existingCount := (t.items.filter (fun r => r.campaignSessionId == campaignId)).length
  let created := (request.items.filter (fun input => (t.itemByKey campaignId input.key).isNone)).length
  Tx.refuseIf (if workItemsPerCampaign < existingCount + created then
      some (fail ("a campaign may hold at most " ++ toString workItemsPerCampaign ++ " work items") 409)
    else none)
  let items ← planItems h campaignId actorSessionId now uuids 0 request.items
  let t ← Tx.read
  match planReplacements campaignId t request.items with
  | .error e => Tx.refuse e
  | .ok replacements =>
    let dependencies ← replaceDependencies h campaignId replacements
    Tx.write (touchAll now dependencies)
    let planState := planStateOf request
    let fixed ← recordFixedByAll campaignId (request.fixedBy.getD [])
    let t ← Tx.read
    let revision ← bumpIf (items.2 || !dependencies.isEmpty || fixed || decide (t.planState campaignId ≠ planState)) campaignId now
      (some planState)
    pure ⟨revision, planState, items.1⟩

def recordPlan (uuids : Nat → Uuid) (request : RecordCampaignPlanRequest) : Ledger RecordCampaignPlanResponse := do
  let t ← Tx.read
  Tx.refuseIf (planRefusal t campaignId actorSessionId request)
  transact h campaignId (planWork h campaignId actorSessionId now uuids request)

end

end Wollipog.Ledger

import Wollipog.Reviews.Contract
import Wollipog.Usage.RatePriced
import Wollipog.Lib.Saturate
/-!
# Definition — the shape of a workflow definition

What the input must be before its graph is looked at: known fields only, bounded texts and numbers, nodes with unique ids
and artifact contracts, edges between two of them.
-/
namespace Wollipog.Workflows

open Json
open Reviews (lit member isInteger)
open Usage (isTrimmed)

inductive NodeKind
  | agent | humanGate | policyGate
  deriving DecidableEq

inductive ArtifactKind
  | htmlPreview | patch | reviewReport | screenshot | testLog | verdict
  deriving DecidableEq

inductive EdgeCondition
  | success | failure | accepted | changesRequested | always
  deriving DecidableEq

inductive VerdictOutcome
  | accepted | changesRequested | rejected
  deriving DecidableEq

/-- An outcome is `none` where it is no text but reads as one. -/
inductive StopCondition
  | verdict (artifact : Text) (outcomes : List (Option VerdictOutcome))
  | attemptLimit (maxAttempts : ℤ)

structure ArtifactContract where
  name : Text
  kind : ArtifactKind
  required : Option Bool

structure RetryPolicy where
  maxAttempts : ℤ
  backoffMs : ℤ

structure NodeDefinition where
  nodeId : Text
  kind : NodeKind
  role : Text
  agentId : Option Text
  policyId : Option Text
  prompt : Option Text
  inputs : List ArtifactContract
  outputs : List ArtifactContract
  retry : RetryPolicy
  timeoutMs : ℤ
  stopCondition : Option StopCondition

structure EdgeDefinition where
  edgeId : Text
  source : Text
  target : Text
  on : EdgeCondition

structure WorkflowDefinitionSpec where
  name : Text
  description : Option Text
  maxTransitions : ℤ
  nodes : List NodeDefinition
  edges : List EdgeDefinition

inductive Refusal
  | unsupportedFields | name | description | maxTransitions | nodes | edges | nodeIds | edge
  | verdictEdge (edgeId : Text)
  | noEntry | unreachable
  | conflictingKinds (artifact : Text)
  | unproduced (nodeId artifact : Text)
  | verdictOutput (nodeId : Text)
  | deadlock

def Refusal.error : Refusal → Text
  | .unsupportedFields => lit "workflow contains unsupported fields"
  | .name => lit "workflow name must be between 1 and 120 characters"
  | .description => lit "workflow description is invalid"
  | .maxTransitions => lit "maxTransitions must be an integer between 1 and 1000"
  | .nodes => lit "workflow nodes are invalid"
  | .edges => lit "workflow edges are invalid"
  | .nodeIds => lit "workflow node ids must be unique"
  | .edge => lit "workflow contains an invalid edge"
  | .verdictEdge edgeId => lit "edge '" ++ edgeId ++ lit "' requires a matching verdict stop condition"
  | .noEntry => lit "workflow must have at least one entry node"
  | .unreachable => lit "every workflow node must be reachable from an entry node"
  | .conflictingKinds artifact => lit "artifact '" ++ artifact ++ lit "' has conflicting output kinds"
  | .unproduced nodeId artifact => nodeId ++ lit " requires unproduced artifact '" ++ artifact ++ lit "'"
  | .verdictOutput nodeId => nodeId ++ lit " verdict stop condition must reference its verdict output"
  | .deadlock => lit "workflow artifact dependencies deadlock on the first traversal"

/-! ## Values -/

def between (low high : Nat) (c : CodeUnit) : Bool := decide (low ≤ c.val) && decide (c.val ≤ high)

def isLetter (c : CodeUnit) : Bool := between 65 90 c || between 97 122 c
def isDigit (c : CodeUnit) : Bool := between 48 57 c

/-- `^[first][rest]{0,max}$` -/
def spelled (first rest : CodeUnit → Bool) (max : Nat) : Text → Bool
  | [] => false
  | c :: cs => first c && cs.all rest && decide (cs.length ≤ max)

/-- `ID` -/
def isId : Text → Bool := spelled isLetter (fun c => isLetter c || isDigit c || c == 95 || c == 45) 63

/-- `ARTIFACT_NAME` -/
def isArtifactName : Text → Bool := spelled isLetter (fun c => isLetter c || isDigit c || c == 95 || c == 46 || c == 45) 79

def isPolicyId : Text → Bool :=
  spelled (fun c => isLetter c || isDigit c) (fun c => isLetter c || isDigit c || c == 58 || c == 46 || c == 95 || c == 45) 127

def isForbidden (c : CodeUnit) : Bool := between 0x00 0x08 c || c.val == 0x0b || c.val == 0x0c || between 0x0e 0x1f c

def validText (max : Nat) (allowEmpty : Bool) (s : Text) : Bool :=
  decide (s.length ≤ max) && (allowEmpty || s.any (fun c => !isTrimmed c)) && !s.any isForbidden

def exactFields (members : List (Text × Option Value)) (allowed : List String) : Bool :=
  members.all (fun e => allowed.any (fun key => lit key == e.1))

def textOf : Value → Option Text
  | .string s => some s
  | _ => none

def boolOf : Value → Option Bool
  | .bool b => some b
  | _ => none

def itemsOf : Value → Option (List Value)
  | .array l => some l
  | _ => none

def membersOf : Value → Option (List (Text × Option Value))
  | .object members => some members
  | _ => none

def integerIn (low high : ℤ) : Value → Option ℤ
  | .number n =>
    let value : ℤ := match n with
      | .zero => 0
      | .signed negative d => (if negative then -1 else 1) * (natValue d.digits * 10 ^ (d.point - d.digits.length).toNat : ℕ)
    if isInteger n && decide (low ≤ value) && decide (value ≤ high) then some value else none
  | _ => none

def required {α : Type} (members : List (Text × Option Value)) (key : String) (read : Value → Option α) : Option α :=
  (member members (lit key)).bind read

/-- A field that may be absent; `none` when it is there and malformed. -/
def optional {α : Type} (members : List (Text × Option Value)) (key : String) (read : Value → Option α) : Option (Option α) :=
  match member members (lit key) with
  | none => some none
  | some v => (read v).map some

def oneOf {α : Type} (names : List (String × α)) (v : Value) : Option α :=
  (textOf v).bind (fun s => (names.find? (fun e => lit e.1 == s)).map Prod.snd)

def textWhere (p : Text → Bool) (v : Value) : Option Text := (textOf v).filter p

mutual

/-- `String(value)`, for a value that can read as an outcome: a text, or a list of only that. -/
def stringOf : Value → Option Text
  | .string s => some s
  | .array l => stringOfItems l
  | _ => none

def stringOfItems : List Value → Option Text
  | [] => none
  | v :: vs => if vs.isEmpty then stringOf v else none

end

def kinds : List (String × NodeKind) := [("agent", .agent), ("human_gate", .humanGate), ("policy_gate", .policyGate)]

def artifactKinds : List (String × ArtifactKind) :=
  [("html_preview", .htmlPreview), ("patch", .patch), ("review_report", .reviewReport), ("screenshot", .screenshot),
    ("test_log", .testLog), ("verdict", .verdict)]

def edgeConditions : List (String × EdgeCondition) :=
  [("success", .success), ("failure", .failure), ("accepted", .accepted), ("changes_requested", .changesRequested),
    ("always", .always)]

def verdictOutcomes : List (String × VerdictOutcome) :=
  [("accepted", .accepted), ("changes_requested", .changesRequested), ("rejected", .rejected)]

def validateOutcome (v : Value) : Option (Option VerdictOutcome) :=
  (stringOf v).bind (fun s => (verdictOutcomes.find? (fun e => lit e.1 == s)).map (fun e => (textOf v).map (fun _ => e.2)))

def validateContract (v : Value) : Option ArtifactContract := do
  let members ← membersOf v
  if exactFields members ["name", "kind", "required"] then
    let name ← required members "name" (textWhere isArtifactName)
    let kind ← required members "kind" (oneOf artifactKinds)
    let isRequired ← optional members "required" boolOf
    return ⟨name, kind, isRequired⟩
  else none

/-- At most 16 contracts, their names distinct.  The reasons for a refusal are not told apart. -/
def validateContracts (v : Value) : Option (List ArtifactContract) := do
  let items ← itemsOf v
  let contracts ← items.mapM validateContract
  if items.length ≤ 16 ∧ (contracts.map ArtifactContract.name).Nodup then return contracts else none

def validateRetry (v : Value) : Option RetryPolicy := do
  let members ← membersOf v
  if exactFields members ["maxAttempts", "backoffMs"] then
    return ⟨← required members "maxAttempts" (integerIn 1 10), ← required members "backoffMs" (integerIn 0 86400000)⟩
  else none

def validateStopCondition (retry : RetryPolicy) (v : Value) : Option StopCondition := do
  let members ← membersOf v
  let kind ← required members "kind" textOf
  if kind = lit "verdict" then
    if exactFields members ["kind", "artifact", "outcomes"] then
      let artifact ← required members "artifact" (textWhere isArtifactName)
      let outcomes ← required members "outcomes" itemsOf
      if 1 ≤ outcomes.length ∧ outcomes.length ≤ 3 then return .verdict artifact (← outcomes.mapM validateOutcome) else none
    else none
  else if kind = lit "attempt_limit" then
    if exactFields members ["kind", "maxAttempts"] then
      return .attemptLimit (← required members "maxAttempts" (integerIn 1 retry.maxAttempts))
    else none
  else none

def nodeFields : List String :=
  ["nodeId", "kind", "role", "agentId", "policyId", "prompt", "inputs", "outputs", "retry", "timeoutMs", "stopCondition"]

def validateActor (members : List (Text × Option Value)) : NodeKind → Option (Option Text × Option Text)
  | .agent => do
    let agentId ← required members "agentId" (textWhere isId)
    if (member members (lit "policyId")).isNone then return (some agentId, none) else none
  | .policyGate => do
    let policyId ← required members "policyId" (textWhere isPolicyId)
    if (member members (lit "agentId")).isNone then return (none, some policyId) else none
  | .humanGate =>
    if (member members (lit "agentId")).isNone && (member members (lit "policyId")).isNone then some (none, none) else none

def validateNode (v : Value) : Option NodeDefinition := do
  let members ← membersOf v
  if exactFields members nodeFields then
    let nodeId ← required members "nodeId" (textWhere isId)
    let kind ← required members "kind" (oneOf kinds)
    let role ← required members "role" (textWhere (validText 80 false))
    let prompt ← optional members "prompt" (textWhere (validText 32000 true))
    let retry ← required members "retry" validateRetry
    let timeoutMs ← required members "timeoutMs" (integerIn 1000 86400000)
    let inputs ← required members "inputs" validateContracts
    let outputs ← required members "outputs" validateContracts
    let actor ← validateActor members kind
    let stopCondition ← optional members "stopCondition" (validateStopCondition retry)
    return ⟨nodeId, kind, role, actor.1, actor.2, prompt, inputs, outputs, retry, timeoutMs, stopCondition⟩
  else none

def EdgeCondition.outcome : EdgeCondition → Option VerdictOutcome
  | .accepted => some .accepted
  | .changesRequested => some .changesRequested
  | _ => none

def NodeDefinition.reports (node : NodeDefinition) (outcome : VerdictOutcome) : Bool :=
  match node.stopCondition with
  | some (.verdict _ outcomes) => decide (some outcome ∈ outcomes)
  | _ => false

def validateEdge (nodes : List NodeDefinition) (edgeIds : List Text) (v : Value) : Option EdgeDefinition := do
  let members ← membersOf v
  if exactFields members ["edgeId", "from", "to", "on"] then
    let edgeId ← required members "edgeId" (textWhere isId)
    let source ← required members "from" textOf
    let target ← required members "to" textOf
    let on ← required members "on" (oneOf edgeConditions)
    let nodeIds := nodes.map NodeDefinition.nodeId
    if !edgeIds.contains edgeId && source != target && nodeIds.contains source && nodeIds.contains target then
      return ⟨edgeId, source, target, on⟩
    else none
  else none

def validateEdges (nodes : List NodeDefinition) : List Text → List Value → Except Refusal (List EdgeDefinition)
  | _, [] => .ok []
  | edgeIds, v :: vs =>
    match validateEdge nodes edgeIds v with
    | none => .error .edge
    | some edge =>
      let answered := edge.on.outcome.all (fun outcome =>
        (nodes.find? (fun node => node.nodeId == edge.source)).any (fun source => source.reports outcome))
      if answered then (validateEdges nodes (edge.edgeId :: edgeIds) vs).map (edge :: ·) else .error (.verdictEdge edge.edgeId)

/-- Everything that `validateWorkflowDefinition` checks before it walks the graph. -/
def readWorkflowDefinition (input : Value) : Except Refusal WorkflowDefinitionSpec := do
  let members ← ((membersOf input).filter (exactFields · ["name", "description", "maxTransitions", "nodes", "edges"])).elim
    (.error .unsupportedFields) .ok
  let name ← (required members "name" (textWhere (validText 120 false))).elim (.error .name) .ok
  let description ← (optional members "description" (textWhere (validText 2000 true))).elim (.error .description) .ok
  let maxTransitions ← (required members "maxTransitions" (integerIn 1 1000)).elim (.error .maxTransitions) .ok
  let nodes ← ((required members "nodes" itemsOf).filter (fun l => decide (1 ≤ l.length) && decide (l.length ≤ 64))).bind
    (·.mapM validateNode) |>.elim (.error .nodes) .ok
  let edges ← ((required members "edges" itemsOf).filter (fun l => decide (l.length ≤ 256))).elim (.error .edges) .ok
  if (nodes.map NodeDefinition.nodeId).Nodup then
    return ⟨name, description, maxTransitions, nodes, ← validateEdges nodes [] edges⟩
  else .error .nodeIds

end Wollipog.Workflows

/-! ## The walks that validate a workflow's graph

Each `while` is a loop with a number of rounds that always suffices.
-/
namespace Wollipog.Workflows

open Json (Text Value)

namespace WorkflowDefinitionSpec

variable (spec : WorkflowDefinitionSpec)

def nodeIds : List Text := spec.nodes.map NodeDefinition.nodeId

def inbound (nodeId : Text) : ℕ := spec.edges.countP (fun edge => edge.target == nodeId)

def roots : List NodeDefinition := spec.nodes.filter (fun node => spec.inbound node.nodeId == 0)

def reachLoop (rounds : ℕ) : Option (List Text) :=
  Saturate.saturate EdgeDefinition.target (fun reachable edge => reachable.contains edge.source) spec.edges rounds
    (spec.roots.map NodeDefinition.nodeId)

def reachable : List Text := (spec.reachLoop (spec.nodes.length + 1)).getD []

/-- The targets of the edges from `current` that were not seen yet, queued. -/
def push (current : Text) (s : List Text × List Text) (edge : EdgeDefinition) : List Text × List Text :=
  if edge.source == current && !s.1.contains edge.target then (s.1 ++ [edge.target], s.2 ++ [edge.target]) else s

/-- The loop of `canReach`, over what was seen and the queue. -/
def searchLoop (target : Text) : ℕ → List Text → List Text → Option Bool
  | 0, _, _ => none
  | _ + 1, _, [] => some false
  | rounds + 1, seen, current :: queue =>
    if spec.edges.any (fun edge => edge.source == current && edge.target == target) then some true
    else
      let s := spec.edges.foldl (push current) (seen, queue)
      searchLoop target rounds s.1 s.2

def canReach (source target : Text) : Bool := (spec.searchLoop target (spec.edges.length + 2) [source] [source]).getD false

structure Producer where
  nodeId : Text
  kind : ArtifactKind

def outputs : List (Text × ArtifactContract) := spec.nodes.flatMap (fun node => node.outputs.map (fun output => (node.nodeId, output)))

def addProducers : OrdMap Text (List Producer) → List (Text × ArtifactContract) → Except Refusal (OrdMap Text (List Producer))
  | produced, [] => .ok produced
  | produced, (nodeId, output) :: rest =>
    let prior := (produced.get output.name).getD []
    if prior.any (fun producer => producer.kind != output.kind) then .error (.conflictingKinds output.name)
    else addProducers (produced.set output.name (prior ++ [⟨nodeId, output.kind⟩])) rest

end WorkflowDefinitionSpec

open WorkflowDefinitionSpec (Producer addProducers)

/-- `inputs.filter((contract) => contract.required !== false)` -/
def NodeDefinition.requiredInputs (node : NodeDefinition) : List ArtifactContract :=
  node.inputs.filter (fun contract => contract.required != some false)

section Checks

variable (spec : WorkflowDefinitionSpec) (produced : OrdMap Text (List Producer))

def supplies (node : NodeDefinition) (contract : ArtifactContract) (producer : Producer) : Bool :=
  producer.nodeId != node.nodeId && producer.kind == contract.kind && spec.canReach producer.nodeId node.nodeId

def producersOf (contract : ArtifactContract) : List Producer := (produced.get contract.name).getD []

def nodeRefusal (node : NodeDefinition) : Option Refusal :=
  (node.requiredInputs.findSome? (fun contract =>
    if (producersOf produced contract).any (supplies spec node contract) then none
    else some (.unproduced node.nodeId contract.name))).or
  (match node.stopCondition with
    | some (.verdict artifact _) =>
      if node.outputs.any (fun output => output.name == artifact && output.kind == .verdict) then none
      else some (.verdictOutput node.nodeId)
    | _ => none)

/-- `dependencyReady && inputsReady` -/
def isReady (schedulable : List Text) (node : NodeDefinition) : Bool :=
  (spec.inbound node.nodeId == 0 || spec.edges.any (fun edge => edge.target == node.nodeId && schedulable.contains edge.source)) &&
    node.requiredInputs.all (fun contract => (producersOf produced contract).any (fun producer =>
      supplies spec node contract producer && schedulable.contains producer.nodeId))

def readyLoop (rounds : ℕ) : Option (List Text) :=
  Saturate.saturate NodeDefinition.nodeId (isReady spec produced) spec.nodes rounds []

def schedulable : List Text := (readyLoop spec produced (spec.nodes.length + 1)).getD []

end Checks

def validateGraph (spec : WorkflowDefinitionSpec) : Except Refusal WorkflowDefinitionSpec :=
  if spec.roots.length < 1 then .error .noEntry
  else if spec.reachable.length ≠ spec.nodes.length then .error .unreachable
  else
    match addProducers OrdMap.empty spec.outputs with
    | .error refusal => .error refusal
    | .ok produced =>
      match spec.nodes.findSome? (nodeRefusal spec produced) with
      | some refusal => .error refusal
      | none => if (schedulable spec produced).length ≠ spec.nodes.length then .error .deadlock else .ok spec

def validateWorkflowDefinition (input : Value) : Except Refusal WorkflowDefinitionSpec :=
  match readWorkflowDefinition input with
  | .error refusal => .error refusal
  | .ok spec => validateGraph spec

end Wollipog.Workflows

import Wollipog.Lib.Follow
import Wollipog.Reviews.Contract
import Wollipog.Usage.RatePriced
/-!
# Projector — the children that a session's events spawn

The projector keeps what the events say of the candidate agents; a page lists the identified children by their first
observation. `toLowerCase` and `localeCompare` stand for the platform's own.
-/
namespace Wollipog.Registry

open Json (Text CodeUnit)
open Reviews (lit)
open Usage (trim isTrimmed)

structure ToolCallPayload where
  toolCallId : Text
  parentToolUseId : Option Text
  toolKind : Option Text
  status : Text
  subagentLifecycle : Option Text
  subagentName : Option Text
  subagentRole : Option Text

structure ToolUpdatePayload where
  toolCallId : Text
  parentToolUseId : Option Text
  status : Text
  subagentLifecycle : Option Text

inductive Payload
  | toolCall (call : ToolCallPayload)
  | toolCallUpdate (update : ToolUpdatePayload)
  | other (parentToolUseId : Option Text)

structure Event where
  seq : ℤ
  ts : ℤ
  payload : Payload

def truthy (s : Option Text) : Option Text := s.filter (fun t => !t.isEmpty)

def Payload.parentToolUseId : Payload → Option Text
  | .toolCall call => call.parentToolUseId
  | .toolCallUpdate update => update.parentToolUseId
  | .other parent => parent

def Event.agent (e : Event) : Option Text :=
  match e.payload with
  | .toolCall call => if call.toolKind = some (lit "agent") then some call.toolCallId else none
  | _ => none

/-! ## The projection state -/

structure ToolCall where
  toolCallId : Text
  parentToolUseId : Option Text
  toolKind : Option Text
  status : Text
  subagentLifecycle : Option Text
  subagentName : Option Text
  subagentRole : Option Text
  seq : ℤ
  ts : ℤ

structure ToolUpdate where
  status : Text
  subagentLifecycle : Option Text
  seq : ℤ
  ts : ℤ

structure DirectTool where
  seq : ℤ
  label : Text
  status : Text

structure Projector where
  spawns : OrdMap Text (List ToolCall)
  updates : OrdMap Text ToolUpdate
  activity : OrdMap Text ℤ
  directTools : OrdMap Text (OrdMap Text DirectTool)
  /-- `none` where a tool was claimed by two parents. -/
  directToolParents : OrdMap Text (Option Text)

def Projector.new : Projector := ⟨.empty, .empty, .empty, .empty, .empty⟩

/-- `AGENT_SPAWN_OBSERVATION_CAP` -/
def observationCap : ℕ := 3

section Append

variable (toLowerCase : Text → Text)

def contentFreeToolLabel (toolKind : Option Text) : Text :=
  match toolKind.map toLowerCase with
  | none => lit "Tool"
  | some kind =>
    if kind = lit "read" then lit "Read"
    else if kind = lit "write" ∨ kind = lit "edit" then lit "File Change"
    else if kind ∈ [lit "bash", lit "shell", lit "command", lit "execute"] then lit "Command"
    else if kind = lit "agent" then lit "Subagent"
    else if kind = lit "skill" then lit "Skill"
    else lit "Tool"

def observed (call : ToolCallPayload) (e : Event) : ToolCall where
  toolCallId := call.toolCallId
  parentToolUseId := truthy call.parentToolUseId
  toolKind := call.toolKind
  status := call.status
  subagentLifecycle := truthy call.subagentLifecycle
  subagentName := truthy call.subagentName
  subagentRole := truthy call.subagentRole
  seq := e.seq
  ts := e.ts

def Projector.observe (s : Projector) (call : ToolCall) : Projector :=
  let observations := (s.spawns.get call.toolCallId).getD []
  let kept := if observations.length < observationCap then observations ++ [call] else observations
  { s with spawns := s.spawns.set call.toolCallId kept }

/-- A tool call under a candidate parent: new, its parent's latest, or claimed by another parent. -/
def Projector.direct (s : Projector) (parentId toolCallId : Text) (latest : DirectTool) : Projector :=
  match s.directToolParents.get toolCallId with
  | none =>
    { s with
      directToolParents := s.directToolParents.set toolCallId (some parentId)
      directTools := s.directTools.set parentId (((s.directTools.get parentId).getD .empty).set toolCallId latest) }
  | some none => s
  | some (some known) =>
    if known = parentId then
      let tools := (s.directTools.get parentId).getD .empty
      if ((tools.get toolCallId).elim (-1) DirectTool.seq) < latest.seq then
        { s with directTools := s.directTools.set parentId (tools.set toolCallId latest) }
      else s
    else
      { s with
        directTools := s.directTools.modify known (fun tools => tools.erase toolCallId)
        directToolParents := s.directToolParents.set toolCallId none }

def Projector.updateTool (s : Projector) (parentId : Text) (update : ToolUpdatePayload) (seq : ℤ) : Projector :=
  match (s.directTools.get parentId).bind (fun tools => tools.get update.toolCallId) with
  | none => s
  | some tool =>
    if tool.seq < seq then
      let latest : DirectTool := { tool with seq := seq, status := update.status }
      { s with directTools := s.directTools.modify parentId (fun tools => tools.set update.toolCallId latest) }
    else s

def Projector.take (candidates : Text → Bool) (s : Projector) (e : Event) : Projector :=
  let parentId := (truthy e.payload.parentToolUseId).filter candidates
  let s := match parentId with
    | some parent => { s with activity := s.activity.set parent (max ((s.activity.get parent).getD 0) e.ts) }
    | none => s
  match e.payload with
  | .toolCall call =>
    let s := if candidates call.toolCallId then s.observe (observed call e) else s
    match parentId with
    | some parent => s.direct parent call.toolCallId ⟨e.seq, contentFreeToolLabel toLowerCase call.toolKind, call.status⟩
    | none => s
  | .toolCallUpdate update =>
    let s := if candidates update.toolCallId && decide ((s.updates.get update.toolCallId).elim (-1) ToolUpdate.seq < e.seq) then
        { s with updates := s.updates.set update.toolCallId ⟨update.status, truthy update.subagentLifecycle, e.seq, e.ts⟩ }
      else s
    match parentId with
    | some parent => s.updateTool parent update e.seq
    | none => s
  | .other _ => s

def Projector.candidates (s : Projector) (events : List Event) (id : Text) : Bool :=
  s.spawns.keys.contains id || (events.filterMap Event.agent).contains id

def Projector.appendWith (candidates : Text → Bool) (s : Projector) (events : List Event) : Projector :=
  events.foldl (Projector.take toLowerCase candidates) s

/-- `append(events)`, without candidate ids of the caller. -/
def Projector.append (s : Projector) (events : List Event) : Projector :=
  s.appendWith toLowerCase (s.candidates events) events

end Append

/-! ## Pages -/

def unique (values : List (Option Text)) : Bool := decide ((values.filterMap truthy).dedup.length ≤ 1)

def completes (partialCall full : ToolCall) : Bool :=
  partialCall.toolCallId == full.toolCallId && partialCall.status == lit "pending" && full.status == lit "in_progress" &&
    partialCall.parentToolUseId == full.parentToolUseId && partialCall.subagentLifecycle.isNone && partialCall.subagentName.isNone &&
    partialCall.subagentRole.isNone && full.subagentLifecycle.isNone && full.subagentName.isNone

def collapseAgentSpawnObservations (observations : List ToolCall) : Option (ToolCall × ToolCall) :=
  match observations.head?, observations.getLast? with
  | some first, some latest =>
    if observationCap ≤ observations.length || observations.any (fun o => o.toolKind != some (lit "agent")) ||
        (observations.length == 2 && !completes first latest) || !unique (observations.map ToolCall.parentToolUseId) ||
        !unique (observations.map ToolCall.subagentName) || !unique (observations.map ToolCall.subagentRole) then none
    else some (first, latest)
  | _, _ => none

def squeeze : Text → Text
  | [] => []
  | c :: cs => if isTrimmed c && cs.head?.any isTrimmed then squeeze cs else (if isTrimmed c then 32 else c) :: squeeze cs

def isMark (c : CodeUnit) : Bool :=
  decide (c.val ≤ 0x1f) || c.val == 0x7f || (decide (0x202a ≤ c.val) && decide (c.val ≤ 0x202e)) ||
    (decide (0x2066 ≤ c.val) && decide (c.val ≤ 0x2069))

def displayText (value : Option Text) (max : ℕ) : Option Text :=
  value.bind (fun s =>
    let normalized := trim (squeeze (s.map (fun c => if isMark c then 32 else c)))
    if normalized.isEmpty then none
    else if max < normalized.length then some (normalized.take max ++ lit "…") else some normalized)

structure Entry where
  toolCallId : Text
  parentToolUseId : Option Text
  name : Text
  role : Option Text
  status : Text
  lifecycle : Option Text
  sourceSeq : ℤ
  startedAt : ℤ
  lastActivityAt : ℤ
  completedAt : Option ℤ
  toolCount : ℕ
  latestTool : Option (Text × Bool)

def activeToolStatuses : List Text := ["pending", "starting", "in_progress", "running", "waiting"].map lit

def terminalStatuses : List Text :=
  ["completed", "success", "succeeded", "failed", "error", "rejected", "cancelled", "canceled"].map lit

def latestOf (tools : List DirectTool) : Option DirectTool :=
  tools.foldl (fun selected candidate =>
    match selected with
    | none => some candidate
    | some tool => if tool.seq < candidate.seq then some candidate else some tool) none

section Page

variable (toLowerCase : Text → Text)

def Projector.entry (s : Projector) (toolCallId : Text) (first latestSpawn : ToolCall) : Entry :=
  let latest := s.updates.get toolCallId
  let status := latest.elim latestSpawn.status ToolUpdate.status
  let lifecycle := (latest.bind ToolUpdate.subagentLifecycle).or (latestSpawn.subagentLifecycle.or first.subagentLifecycle)
  let tools := (s.directTools.get toolCallId).elim [] (fun tools => tools.entries.map Prod.snd)
  let terminal := (lifecycle.any (fun l => [lit "completed", lit "failed", lit "interrupted"].contains l)) ||
    terminalStatuses.contains (toLowerCase status)
  let active := max (latest.elim 0 ToolUpdate.ts) ((s.activity.get toolCallId).getD 0)
  { toolCallId := toolCallId
    parentToolUseId := truthy (latestSpawn.parentToolUseId.or first.parentToolUseId)
    name := (displayText (latestSpawn.subagentName.or first.subagentName) 80).getD (lit "Subagent")
    role := displayText (latestSpawn.subagentRole.or first.subagentRole) 48
    status := status
    lifecycle := truthy lifecycle
    sourceSeq := first.seq
    startedAt := first.ts
    lastActivityAt := max first.ts active
    completedAt := if terminal then some (max active first.ts) else none
    toolCount := tools.length
    latestTool := (latestOf tools).map (fun tool => (tool.label, activeToolStatuses.contains (toLowerCase tool.status))) }

def Projector.claimed (s : Projector) : List Entry :=
  s.spawns.entries.filterMap (fun e => (collapseAgentSpawnObservations e.2).map (fun o => s.entry toLowerCase e.1 o.1 o.2))

end Page

/-- `nodes.get(cursor)?.parentToolUseId`, where that is a node. -/
def parentOf (nodes : List Entry) (id : Text) : Option Text :=
  ((nodes.find? (fun n => n.toolCallId == id)).bind Entry.parentToolUseId).filter
    (fun parent => !parent.isEmpty && nodes.any (fun n => n.toolCallId == parent))

def cyclic (nodes : List Entry) : List Text :=
  (nodes.filter (fun n => !n.toolCallId.isEmpty)).flatMap (fun n =>
    (Follow.walk (parentOf nodes) (nodes.length + 1) [] n.toolCallId).getD [])

def acyclic (nodes : List Entry) : List Entry :=
  nodes.map (fun n => if n.toolCallId ∈ cyclic nodes then { n with parentToolUseId := none } else n)

structure Request where
  requestId : Text
  ownerToolUseId : Option Text

structure AttentionOwner where
  requestId : Text
  toolCallId : Text
  resolved : Bool
  name : Option Text
  role : Option Text

structure ChildSessionRegistryPage where
  children : List Entry
  attentionOwners : List AttentionOwner
  unidentifiedChildren : ℕ
  eventEpoch : ℕ
  nextAfter : Option ℤ
  truncated : Bool

section Page

variable (toLowerCase : Text → Text) (localeCompare : Text → Text → Ordering)

def Projector.children (s : Projector) : List Entry := acyclic (s.claimed toLowerCase)

/-- `[...nodes.values()].sort((a, b) => a.sourceSeq - b.sourceSeq || a.toolCallId.localeCompare(b.toolCallId))` -/
def ordered (nodes : List Entry) : List Entry :=
  nodes.insertionSort (fun a b => a.sourceSeq < b.sourceSeq ∨
    (a.sourceSeq = b.sourceSeq ∧ (localeCompare a.toolCallId b.toolCallId).isLE = true))

/-- `pendingRequests` stands in `pending`. -/
def Projector.page (s : Projector) (pending : List Request) (eventEpoch : ℕ) (after : ℤ) (limit : ℕ) : ChildSessionRegistryPage :=
  let nodes := s.children toLowerCase
  let eligible := (ordered localeCompare nodes).filter (fun child => decide (after < child.sourceSeq))
  let children := eligible.take limit
  { children := children
    attentionOwners := pending.filterMap (fun request => (truthy request.ownerToolUseId).map (fun owner =>
      let child := nodes.find? (fun n => n.toolCallId == owner)
      ⟨request.requestId, owner, child.isSome, child.map Entry.name, child.bind Entry.role⟩))
    unidentifiedChildren := s.spawns.entries.countP (fun e => (collapseAgentSpawnObservations e.2).isNone &&
      e.2.any (fun o => o.toolKind == some (lit "agent")))
    eventEpoch := eventEpoch
    nextAfter := if children.length < eligible.length then some ((children.getLast?.map Entry.sourceSeq).getD after) else none
    truncated := decide (children.length < eligible.length) }

end Page

end Wollipog.Registry

/-! ## Appending batches against projecting the whole log

An event reads the candidacy of the ids it names and of no other.
-/
namespace Wollipog.Registry

open Json (Text CodeUnit)
open Reviews (lit)

def Event.names (e : Event) : List Text :=
  (truthy e.payload.parentToolUseId).toList ++
    match e.payload with
    | .toolCall call => [call.toolCallId]
    | .toolCallUpdate update => [update.toolCallId]
    | .other _ => []

def agents (events : List Event) : List Text := events.filterMap Event.agent

def SpawnsFirst (batches : List (List Event)) : Prop :=
  ∀ pre batch post, batches = pre ++ batch :: post → ∀ e ∈ batch, ∀ id ∈ e.names,
    id ∈ agents batches.flatten → id ∈ agents (pre.flatten ++ batch)

def registry (toLowerCase : Text → Text) (batches : List (List Event)) : Projector :=
  batches.foldl (Projector.append toLowerCase) Projector.new

section Append

variable {toLowerCase : Text → Text} {c c' : Text → Bool} {s : Projector}

variable {id : Text} {e : Event}

/-- **An event reads only the ids it names.** -/
theorem take_congr (h : ∀ id ∈ e.names, c id = c' id) : s.take toLowerCase c e = s.take toLowerCase c' e := by
  have hparent : (truthy e.payload.parentToolUseId).filter c = (truthy e.payload.parentToolUseId).filter c' := by
    cases hp : truthy e.payload.parentToolUseId with
    | none => rfl
    | some parent =>
      have hmem : parent ∈ e.names := List.mem_append_left _ (by rw [hp]; exact List.mem_singleton_self _)
      rw [Option.filter_some, Option.filter_some, h parent hmem]
  unfold Projector.take
  rw [hparent]
  cases hpayload : e.payload with
  | toolCall call =>
    have hid : call.toolCallId ∈ e.names := List.mem_append_right _ (by rw [hpayload]; exact List.mem_singleton_self _)
    simp only [h _ hid]
  | toolCallUpdate update =>
    have hid : update.toolCallId ∈ e.names := List.mem_append_right _ (by rw [hpayload]; exact List.mem_singleton_self _)
    simp only [h _ hid]
  | other parent => rfl

theorem appendWith_congr : ∀ (events : List Event) (s : Projector), (∀ e ∈ events, ∀ id ∈ e.names, c id = c' id) →
    s.appendWith toLowerCase c events = s.appendWith toLowerCase c' events
  | [], _, _ => rfl
  | e :: events, s, h => by
    rw [Projector.appendWith, Projector.appendWith, List.foldl_cons, List.foldl_cons, take_congr (h e List.mem_cons_self)]
    exact appendWith_congr events _ (fun e' he' => h e' (List.mem_cons_of_mem _ he'))

theorem appendWith_append (first rest : List Event) : s.appendWith toLowerCase c (first ++ rest) =
    (s.appendWith toLowerCase c first).appendWith toLowerCase c rest := by
  rw [Projector.appendWith, List.foldl_append]
  rfl

/-! ## Spawns -/

theorem direct_spawns (s : Projector) (parentId toolCallId : Text) (latest : DirectTool) :
    (s.direct parentId toolCallId latest).spawns = s.spawns := by
  unfold Projector.direct
  split
  · rfl
  · rfl
  · split
    · dsimp only
      split <;> rfl
    · rfl

theorem updateTool_spawns (s : Projector) (parentId : Text) (update : ToolUpdatePayload) (seq : ℤ) :
    (s.updateTool parentId update seq).spawns = s.spawns := by
  unfold Projector.updateTool
  split
  · rfl
  · split <;> rfl

theorem take_spawns (toLowerCase : Text → Text) (c : Text → Bool) (s : Projector) (e : Event) : (s.take toLowerCase c e).spawns = s.spawns ∨
    ∃ call, e.payload = .toolCall call ∧ c call.toolCallId = true ∧
      (s.take toLowerCase c e).spawns = (s.observe (observed call e)).spawns := by
  unfold Projector.take
  cases hpayload : e.payload with
  | toolCall call =>
    by_cases hc : c call.toolCallId = true
    · refine .inr ⟨call, rfl, hc, ?_⟩
      simp only [hc, if_true]
      split
      · rw [direct_spawns]
        rfl
      · rfl
    · refine .inl ?_
      simp only [if_neg hc]
      split
      · rw [direct_spawns]
      · rfl
  | toolCallUpdate update =>
    refine .inl ?_
    dsimp only
    split
    · rw [updateTool_spawns]
      split <;> split <;> rfl
    · split <;> split <;> rfl
  | other parent =>
    refine .inl ?_
    dsimp only
    split <;> rfl

theorem observe_keys {s : Projector} {call : ToolCall} :
    id ∈ (s.observe call).spawns.keys ↔ id = call.toolCallId ∨ id ∈ s.spawns.keys :=
  OrdMap.mem_keys_set

theorem take_keys (h : id ∈ (s.take toLowerCase c e).spawns.keys) : id ∈ s.spawns.keys ∨ c id = true := by
  rcases take_spawns toLowerCase c s e with hsame | ⟨call, -, hc, hspawns⟩
  · rw [hsame] at h
    exact .inl h
  · rw [hspawns, observe_keys] at h
    rcases h with rfl | h
    · exact .inr hc
    · exact .inl h

theorem take_keeps (h : id ∈ s.spawns.keys) : id ∈ (s.take toLowerCase c e).spawns.keys := by
  rcases take_spawns toLowerCase c s e with hsame | ⟨call, -, -, hspawns⟩
  · rw [hsame]
    exact h
  · rw [hspawns, observe_keys]
    exact .inr h

theorem take_agent (hagent : e.agent = some id) (hc : c id = true) : id ∈ (s.take toLowerCase c e).spawns.keys := by
  unfold Event.agent at hagent
  unfold Projector.take
  cases hpayload : e.payload with
  | toolCall call =>
    rw [hpayload] at hagent
    dsimp only at hagent
    split at hagent
    · cases hagent
      simp only [hc, if_true]
      split
      · rw [direct_spawns]
        exact observe_keys.2 (.inl rfl)
      · exact observe_keys.2 (.inl rfl)
    · cases hagent
  | toolCallUpdate update | other parent =>
    rw [hpayload] at hagent
    cases hagent

theorem appendWith_keys : ∀ (events : List Event) {s : Projector} {id : Text},
    id ∈ (s.appendWith toLowerCase c events).spawns.keys → id ∈ s.spawns.keys ∨ c id = true
  | [], _, _, h => .inl h
  | e :: events, s, id, h => by
    rw [Projector.appendWith, List.foldl_cons] at h
    rcases appendWith_keys events h with h | hc
    · exact take_keys h
    · exact .inr hc

theorem appendWith_keeps : ∀ (events : List Event) {s : Projector} {id : Text}, id ∈ s.spawns.keys →
    id ∈ (s.appendWith toLowerCase c events).spawns.keys
  | [], _, _, h => h
  | e :: events, s, id, h => by
    rw [Projector.appendWith, List.foldl_cons]
    exact appendWith_keeps events (take_keeps h)

theorem appendWith_agents : ∀ (events : List Event) {s : Projector} {id : Text}, id ∈ agents events → c id = true →
    id ∈ (s.appendWith toLowerCase c events).spawns.keys
  | [], _, _, h, _ => absurd h List.not_mem_nil
  | e :: events, s, id, h, hc => by
    rw [Projector.appendWith, List.foldl_cons]
    obtain ⟨e', he', hagent⟩ := List.mem_filterMap.1 h
    rcases List.mem_cons.1 he' with rfl | he'
    · exact appendWith_keeps events (take_agent hagent hc)
    · exact appendWith_agents events (List.mem_filterMap.2 ⟨e', he', hagent⟩) hc

theorem mem_agents_append {first rest : List Event} : id ∈ agents (first ++ rest) ↔ id ∈ agents first ∨ id ∈ agents rest := by
  rw [agents, List.filterMap_append, List.mem_append]
  rfl

/-- **A batch finds the candidates of the whole log**, for the ids that its events name. -/
theorem candidates_eq {log first batch : List Event} (hagents : ∀ id ∈ agents (first ++ batch), id ∈ agents log)
    (hid : id ∈ agents log → id ∈ agents (first ++ batch)) :
    (Projector.new.appendWith toLowerCase (agents log).contains first).candidates batch id = (agents log).contains id := by
  rw [Bool.eq_iff_iff, Projector.candidates, Bool.or_eq_true, List.contains_iff_mem, List.contains_iff_mem, List.contains_iff_mem]
  constructor
  · rintro (hkey | hbatch)
    · rcases appendWith_keys first hkey with hnew | hc
      · exact absurd hnew List.not_mem_nil
      · exact List.contains_iff_mem.1 hc
    · exact hagents id (mem_agents_append.2 (.inr hbatch))
  · intro hlog
    rcases mem_agents_append.1 (hid hlog) with hfirst | hbatch
    · exact .inl (appendWith_agents first hfirst (List.contains_iff_mem.2 hlog))
    · exact .inr hbatch

theorem foldl_append {batches : List (List Event)} (h : SpawnsFirst batches) : ∀ (rest pre : List (List Event)), batches = pre ++ rest →
    rest.foldl (Projector.append toLowerCase) (Projector.new.appendWith toLowerCase (agents batches.flatten).contains pre.flatten) =
      Projector.new.appendWith toLowerCase (agents batches.flatten).contains batches.flatten
  | [], pre, hsplit => by
    rw [List.append_nil] at hsplit
    rw [hsplit]
    rfl
  | batch :: rest, pre, hsplit => by
    have hbatch : (Projector.new.appendWith toLowerCase (agents batches.flatten).contains pre.flatten).append toLowerCase batch =
        Projector.new.appendWith toLowerCase (agents batches.flatten).contains (pre ++ [batch]).flatten := by
      have hflat : batches.flatten = (pre.flatten ++ batch) ++ rest.flatten := by
        rw [hsplit, List.flatten_append, List.flatten_cons, List.append_assoc]
      rw [List.flatten_append, List.flatten_singleton, appendWith_append]
      refine appendWith_congr batch _ (fun e he id hid => candidates_eq (fun id hmem => ?_) (h pre batch rest hsplit e he id hid))
      rw [hflat]
      exact mem_agents_append.2 (.inl hmem)
    rw [List.foldl_cons, hbatch]
    exact foldl_append h rest (pre ++ [batch]) (by rw [hsplit, List.append_assoc]; rfl)

/-- **Appending batches is projecting the log**, where every agent is spawned by the batch that first names it. -/
theorem registry_eq {batches : List (List Event)} (h : SpawnsFirst batches) :
    registry toLowerCase batches = Projector.new.append toLowerCase batches.flatten :=
  foldl_append h batches [] rfl

theorem foldl_appendWith : ∀ (batches : List (List Event)) (s : Projector),
    batches.foldl (Projector.appendWith toLowerCase c) s = s.appendWith toLowerCase c batches.flatten
  | [], _ => rfl
  | batch :: batches, s => by
    rw [List.foldl_cons, foldl_appendWith batches, List.flatten_cons, appendWith_append]

end Append

end Wollipog.Registry

import Mathlib
import Wollipog.Lib.Js
/-!
# Place — where a session may continue, as the database and the inspections say

What one Location switch reads: `Facts` is the database apart from the decisions.
-/
namespace Wollipog
namespace Switch

structure Refusal where
  error : String
  status : Nat
deriving DecidableEq, Repr

def fail {α : Type} (error : String) (status : Nat := 409) : Except Refusal α := .error ⟨error, status⟩

structure AgentPrincipal where
  actorId : String
  credentialSessionId : String
deriving DecidableEq, Repr

structure HumanPrincipal where
  userId : String
  organizationId : String
deriving DecidableEq, Repr

inductive Principal
  | agent (a : AgentPrincipal)
  | human (h : HumanPrincipal)
deriving DecidableEq, Repr

inductive SessionRole
  | normal | orchestrator
deriving DecidableEq, Repr

structure SessionView where
  id : String
  runnerId : String
  workspaceId : Option String
  workspaceName : Option String
  projectId : Option String
  projectLocationId : Option String
  agentId : Option String
  agentName : Option String
  model : Option String
  effort : Option String
  permissionMode : Option String
  driver : Option String
  title : String
  archived : Bool
  terminal : Bool
  role : SessionRole
  parentSessionId : Option String
deriving DecidableEq, Repr

structure AgentView where
  id : String
  available : Bool
deriving DecidableEq, Repr

structure RunnerView where
  displayName : Option String
  hostname : Option String
  protocolVersion : Option Nat
  agents : List AgentView
deriving DecidableEq, Repr

structure ProjectLocationView where
  id : String
  name : String
  runnerId : String
  workspaceId : String
  path : String
  removed : Bool
deriving DecidableEq, Repr

structure ProjectView where
  id : String
  name : String
  locations : List ProjectLocationView
deriving DecidableEq, Repr

structure Facts where
  getSession : String → Option SessionView
  getRunner : String → Option RunnerView
  getProject : String → Option ProjectView
  getWorkspacePath : String → String → Option String
  canAccessSession : AgentPrincipal → String → Bool
  canAccessProject : Principal → String → Bool
  canAccessRunner : Principal → String → Bool
  canAccessWorkspace : Principal → String → String → Bool
  sessionScope : String → Option String
  operatingHumanPrincipal : String → String → Option HumanPrincipal
  isSessionOwner : HumanPrincipal → String → Bool

inductive LocationSwitchAction
  | switch | newSession
deriving DecidableEq, Repr

structure LocationSwitchPlace where
  locationId : Option String
  name : String
  runnerId : String
  machineName : String
  workspaceId : String
  path : String
  repository : Option String
deriving DecidableEq, Repr

structure LocationSwitchCandidate where
  place : LocationSwitchPlace
  locationId : String
  repository : String
  sameRunner : Bool
  actions : List LocationSwitchAction
  unavailableReason : Option String
deriving DecidableEq, Repr

structure LocationSwitchUnavailable where
  locationId : Option String
  name : String
  machineName : String
  reason : String
deriving DecidableEq, Repr

structure InspectedLocation where
  runnerId : String
  workspaceId : String
  repository : String
deriving DecidableEq, Repr

abbrev LocationInspection := Except String InspectedLocation

structure SessionBinding where
  id : String
  runnerId : String
  workspaceId : Option String
  projectId : Option String
  projectLocationId : Option String
  agentId : Option String
  model : Option String
  effort : Option String
  permissionMode : Option String
deriving DecidableEq, Repr

def sessionBinding (session : SessionView) : SessionBinding where
  id := session.id
  runnerId := session.runnerId
  workspaceId := session.workspaceId
  projectId := session.projectId
  projectLocationId := session.projectLocationId
  agentId := session.agentId
  model := session.model
  effort := session.effort
  permissionMode := session.permissionMode

structure Bound where
  session : SessionBinding
  current : LocationSwitchPlace
  candidates : List LocationSwitchCandidate
deriving DecidableEq, Repr

inductive LocationSwitchRole
  | offer | orchestrator | reportToParent
deriving DecidableEq, Repr

def locationSwitchRole (session : SessionView) : LocationSwitchRole :=
  if session.role = .orchestrator then .orchestrator
  else if session.parentSessionId.any (· ≠ "") then .reportToParent
  else .offer

def guidance : LocationSwitchRole → String
  | .offer => "This task belongs to another repository. Call request_location_switch (or `wollipog location-switch request`) " ++
      "with that repository, so your person can approve continuing in one of its Project Locations."
  | .orchestrator => "Orchestrators do not switch Locations. Stay in this Location and dispatch a child session to a Location " ++
      "of that repository under the campaign's policy."
  | .reportToParent => "This session keeps the repository it was assigned. Report the repository mismatch to the session " ++
      "that started you (your Orchestrator) so it can reassign the work; do not switch Locations."

def supports (runner : Option RunnerView) (protocol : Nat) : Bool := (runner.bind RunnerView.protocolVersion).any (protocol ≤ ·)

def sessionLocationSwitch : Nat := 287
def sessionLocationSwitchLive : Nat := 289

/-- The runner's sessions whose conversation resumes across a working-directory change. -/
def liveSwitchDrivers : List String := ["claude-code", "codex-app-server"]

def sameLocationSwitchRepository (a b : Option String) : Bool :=
  match a, b with
  | some a, some b => Js.lower a == Js.lower b
  | _, _ => false

def maxLocations : Nat := 24

def trim (s : String) : String :=
  String.ofList ((s.toList.dropWhile Js.isSpace).reverse.dropWhile Js.isSpace).reverse

/-- `a || b` on texts that may be missing. -/
def orElse (a : Option String) (b : Option String) : Option String := if a.any (· ≠ "") then a else b

variable (facts : Facts)

def requester (principal : AgentPrincipal) (sessionId : String) : Except Refusal SessionView :=
  if principal.credentialSessionId ≠ sessionId ∨ facts.canAccessSession principal sessionId = false then
    fail "session not found" 404
  else
    match facts.getSession sessionId with
    | none => fail "A live session is required to switch Locations"
    | some session =>
      if session.archived ∨ session.terminal then fail "A live session is required to switch Locations"
      else if supports (facts.getRunner session.runnerId) sessionLocationSwitch = false then
        fail "Update this session's machine before requesting a Location switch"
      else if locationSwitchRole session ≠ .offer then fail (guidance (locationSwitchRole session)) 403
      else .ok session

def machineName (runnerId : String) : String :=
  let runner := facts.getRunner runnerId
  (orElse (orElse ((runner.bind RunnerView.displayName).map trim) (runner.bind RunnerView.hostname)) (some runnerId)).getD runnerId

def place (location : ProjectLocationView) (repository : Option String) : LocationSwitchPlace where
  locationId := some location.id
  name := location.name
  runnerId := location.runnerId
  machineName := machineName facts location.runnerId
  workspaceId := location.workspaceId
  path := location.path
  repository := if repository.any (· ≠ "") then repository else none

/-- The Project whose Locations are inspected, with those that are. -/
def toInspect (session : SessionView) (principal : Principal) (repository : String) :
    Except Refusal (ProjectView × List (ProjectLocationView × Bool)) :=
  match (session.projectId.filter (· ≠ "")).bind facts.getProject with
  | none => outside
  | some project =>
    if facts.canAccessProject principal project.id = false then outside
    else .ok (project, ((project.locations.filter (fun l => !l.removed)).take maxLocations).map (fun l =>
      (l, facts.canAccessRunner principal l.runnerId && facts.canAccessWorkspace principal l.runnerId l.workspaceId)))
where
  outside {α : Type} : Except Refusal α :=
    fail ("This session is not in a Project, so it has no other Locations to continue in. Start a session in a Location of " ++
      repository ++ " instead.")

def inspections (asked : List (ProjectLocationView × Bool)) (answers : String → LocationInspection) :
    List (String × LocationInspection) :=
  asked.map (fun l => (l.1.id, if l.2 then answers l.1.id else .error "You don't have access to this Location's folder."))

def inspectionOf (found : List (String × LocationInspection)) (locationId : String) : Option LocationInspection :=
  (found.reverse.find? (fun e => e.1 == locationId)).map Prod.snd

def inspectedRepository : Option LocationInspection → Option String
  | some (.ok location) => some location.repository
  | _ => none

def currentPlace (session : SessionView) (location : Option ProjectLocationView) (repository : Option String) :
    LocationSwitchPlace :=
  match location with
  | some location => place facts location repository
  | none =>
    { locationId := none
      name := (session.workspaceName.orElse (fun _ => session.workspaceId)).getD ""
      runnerId := session.runnerId
      machineName := machineName facts session.runnerId
      workspaceId := session.workspaceId.getD ""
      path := (facts.getWorkspacePath session.runnerId (session.workspaceId.getD "")).getD ""
      repository := none }

def candidate (session : SessionView) (location : ProjectLocationView) (repository : String) : LocationSwitchCandidate :=
  let target := facts.getRunner location.runnerId
  let agent := (target.map RunnerView.agents).getD [] |>.any (fun a => decide (some a.id = session.agentId) && a.available)
  let sameRunner := location.runnerId == session.runnerId
  let switchable := sameRunner && liveSwitchDrivers.contains (session.driver.getD "") && supports target sessionLocationSwitchLive
  let actions := (if switchable then [LocationSwitchAction.switch] else []) ++ (if agent then [.newSession] else [])
  { place := place facts location (some repository)
    locationId := location.id
    repository := repository
    sameRunner := sameRunner
    actions := actions
    unavailableReason :=
      if actions = [] then some (session.agentName.getD "This session's agent" ++ " isn't available on that machine.") else none }

def sorted (session : SessionView) (repository : String) (found : List (String × LocationInspection)) (location : ProjectLocationView) :
    Option (LocationSwitchCandidate ⊕ LocationSwitchUnavailable) :=
  match inspectionOf found location.id with
  | none => some (.inr (unavailable "The Project has too many Locations to check them all."))
  | some (.error reason) => some (.inr (unavailable reason))
  | some (.ok inspected) =>
    if sameLocationSwitchRepository (some inspected.repository) (some repository) ∧ inspected.runnerId = location.runnerId ∧
        inspected.workspaceId = location.workspaceId then
      some (.inl (candidate facts session location inspected.repository))
    else none
where
  unavailable (reason : String) : LocationSwitchUnavailable :=
    ⟨some location.id, location.name, machineName facts location.runnerId, reason⟩

structure Prepared where
  projectId : String
  current : LocationSwitchPlace
  candidates : List LocationSwitchCandidate
  unavailable : List LocationSwitchUnavailable
  targetDigest : String
deriving DecidableEq, Repr

def noneReasons (candidates : List LocationSwitchCandidate) (unavailable : List LocationSwitchUnavailable) : List String :=
  candidates.map (fun c => c.place.name ++ " on " ++ c.place.machineName ++ ": " ++ c.unavailableReason.getD "undefined") ++
    unavailable.map (fun u => u.name ++ " on " ++ u.machineName ++ ": " ++ u.reason)

/-- `prepare` after its inspections: every place of the card and the digest that binds it. -/
def prepared (auditDigest : Bound → String) (session : SessionView) (repository : String) (project : ProjectView)
    (found : List (String × LocationInspection)) : Except Refusal Prepared :=
  let locations := project.locations.filter (fun l => !l.removed)
  let currentLocation := locations.find? (fun l => some l.id = session.projectLocationId)
  let currentRepository := inspectedRepository (currentLocation.bind (fun l => inspectionOf found l.id))
  let current := currentPlace facts session currentLocation currentRepository
  if sameLocationSwitchRepository currentRepository (some repository) then
    fail ("This session is already in a Location of " ++ currentRepository.getD "" ++ "; no switch is needed.")
  else
    let others := locations.filter (fun l => some l.id ≠ currentLocation.map ProjectLocationView.id)
    let found := others.filterMap (sorted facts session repository found)
    let candidates := found.filterMap Sum.getLeft?
    let unavailable := found.filterMap Sum.getRight?
    if candidates.any (fun c => decide (c.actions ≠ [])) = false then
      let reasons := noneReasons candidates unavailable
      if reasons = [] then
        fail ("No Location in Project \"" ++ project.name ++ "\" belongs to " ++ repository ++
          ". Add a Location of that repository to the Project, or start a session there, then ask again.")
      else
        fail ("No Location of " ++ repository ++ " in Project \"" ++ project.name ++ "\" can continue this task. " ++
          " ".intercalate reasons)
    else
      .ok ⟨project.id, current, candidates, unavailable, auditDigest ⟨sessionBinding session, current, candidates⟩⟩

/-- The requester is still live and regular, and its approver still owns it and can still reach the Location. -/
def authorizeExecution (principal : AgentPrincipal) (sessionId : String) (approver : Option String) (target : LocationSwitchCandidate) :
    Except Refusal (SessionView × HumanPrincipal) :=
  match requester facts principal sessionId with
  | .error e => .error e
  | .ok session =>
    match (facts.sessionScope sessionId).bind (fun organizationId =>
        (approver.filter (· ≠ "")).bind (fun approver => facts.operatingHumanPrincipal approver organizationId)) with
    | none => unowned
    | some human =>
      if facts.isSessionOwner human sessionId = false then unowned
      else
        match session.projectId.filter (· ≠ "") with
        | none => unreachable_
        | some projectId =>
          if facts.canAccessProject (.human human) projectId = false ∨ facts.canAccessRunner (.human human) target.place.runnerId = false ∨
              facts.canAccessWorkspace (.human human) target.place.runnerId target.place.workspaceId = false then unreachable_
          else .ok (session, human)
where
  unowned {α : Type} : Except Refusal α := fail "The approver no longer owns this session or can no longer start sessions"
  unreachable_ {α : Type} : Except Refusal α := fail "The approver can no longer reach that Location"

end Switch
end Wollipog

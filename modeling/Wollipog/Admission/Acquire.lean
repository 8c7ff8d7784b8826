import Mathlib
import Wollipog.Lib.Resume
/-!
# Acquire — the slot leases of a box, primitive by primitive

`BoxAdmission` of one process. Every file-system primitive is a `Call`, between two of which other processes run.
-/
namespace Wollipog
namespace Admission

open Resume

/-- A directory that slots are made in: `admission` itself or one of those below it, by its hash. -/
inductive Root
  | box
  | exclusive (hash : String)
  | targets (hash : String)
  | providers (hash : String)
  | capacityMutation
deriving DecidableEq, Repr

/-- `slot-<index>` of a root. -/
structure Slot where
  root : Root
  index : Nat
deriving DecidableEq, Repr

structure SlotOwner where
  pid : Int
  token : String
  sessionId : String
  agentId : String
deriving DecidableEq, Repr

structure AdmissionRequest where
  sessionId : String
  agentId : String
  weight : Int
  agentLimit : Option Int
  targetId : Option String
  targetLimit : Option Int
  exclusiveGroup : Option String
deriving DecidableEq, Repr

inductive Removal
  | reclaim
  | scan
  | unwritten
  | release
deriving DecidableEq, Repr

inductive Call
  | mkdirRoot (root : Root)
  | mkdirSlot (slot : Slot)
  | writeOwner (slot : Slot) (owner : SlotOwner)
  | readOwner (releasing : Bool) (slot : Slot)
  | kill (pid : Int)
  | stat (slot : Slot)
  | rm (why : Removal) (slot : Slot)
  | readdir (root : Root)
deriving DecidableEq, Repr

inductive Answer
  | done
  | exists
  | threw
  | owner (owner : SlotOwner)
  | flag (b : Bool)
  | slots (slots : List Slot)
deriving DecidableEq, Repr

inductive Thrown
  | eexist
  | other
deriving DecidableEq, Repr

abbrev Code := Program Call Answer Thrown

def mkdirRoot (root : Root) : Code Unit := do
  match ← Program.perform (.mkdirRoot root) with
  | .done => pure ()
  | _ => Program.throw .other

def mkdirSlot (slot : Slot) : Code Unit := do
  match ← Program.perform (.mkdirSlot slot) with
  | .done => pure ()
  | .exists => Program.throw .eexist
  | _ => Program.throw .other

def writeOwner (slot : Slot) (owner : SlotOwner) : Code Unit := do
  match ← Program.perform (.writeOwner slot owner) with
  | .done => pure ()
  | _ => Program.throw .other

def readOwner (releasing : Bool) (slot : Slot) : Code SlotOwner := do
  match ← Program.perform (.readOwner releasing slot) with
  | .owner owner => pure owner
  | _ => Program.throw .other

def rm (why : Removal) (slot : Slot) : Code Unit := do
  match ← Program.perform (.rm why slot) with
  | .done => pure ()
  | _ => Program.throw .other

def readdir (root : Root) : Code (List Slot) := do
  match ← Program.perform (.readdir root) with
  | .slots slots => pure slots
  | _ => Program.throw .other

def statYoung (slot : Slot) : Code Bool := do
  match ← Program.perform (.stat slot) with
  | .flag young => pure young
  | _ => Program.throw .other

def processAlive (pid : Int) : Code Bool :=
  if pid ≤ 0 then pure false
  else do
    match ← Program.perform (.kill pid) with
    | .flag alive => pure alive
    | _ => pure false

def inspectSlot (why : Removal) (slot : Slot) : Code Bool := do
  match ← (do processAlive (← readOwner false slot).pid : Code Bool).attempt with
  | .ok true => pure true
  | .ok false => do rm why slot; pure false
  | .error _ =>
    match ← (statYoung slot).attempt with
    | .error _ => pure false
    | .ok true => pure true
    | .ok false => do rm why slot; pure false

def reclaimIfStale (slot : Slot) : Code Bool := do
  let used ← inspectSlot .reclaim slot
  pure !used

/-- `BoxAdmission`, as one operation finds it. -/
structure BoxAdmission where
  pid : Int
  token : String
  limit : Nat
deriving DecidableEq, Repr

variable (sha256 : String → String) (box : BoxAdmission)

def BoxAdmission.owner (request : AdmissionRequest) : SlotOwner where
  pid := box.pid
  token := box.token
  sessionId := request.sessionId
  agentId := request.agentId

def releaseSlot (slot : Slot) : Code Unit :=
  Program.tryCatch (do
    let owner ← readOwner true slot
    if owner.token = box.token then rm .release slot else pure ()) (fun _ => pure ())

def releaseSlots : List Slot → Code Unit
  | [] => pure ()
  | slot :: slots => do
    releaseSlot box slot
    releaseSlots slots

/-- The directory made and its owner written, the directory removed where that fails. -/
def makeSlot (owner : SlotOwner) (slot : Slot) : Code Unit := do
  mkdirSlot slot
  Program.tryCatch (writeOwner slot owner) (fun e => do
    rm .unwritten slot
    Program.throw e)

def claimSlot (owner : SlotOwner) (slot : Slot) : Nat → Code Bool
  | 0 => pure false
  | attempts + 1 =>
    Program.tryCatch (do makeSlot owner slot; pure true) (fun e =>
      if e = .eexist then do
        if ← reclaimIfStale slot then claimSlot owner slot attempts else pure false
      else pure false)

/-- The loop over a root's slots from `index` on, `left` of them. -/
def claimFrom (owner : SlotOwner) (root : Root) (count : Nat) : Nat → Nat → List Slot → Code (List Slot)
  | 0, _, claimed => pure claimed
  | left + 1, index, claimed =>
    if claimed.length < count then do
      let got ← claimSlot owner ⟨root, index⟩ 2
      claimFrom owner root count left (index + 1) (if got then claimed ++ [⟨root, index⟩] else claimed)
    else pure claimed

def claimSlots (request : AdmissionRequest) (root : Root) (limit : Int) (count : Nat) : Code (Option (List Slot)) := do
  let claimed ← claimFrom (box.owner request) root count limit.toNat 0 []
  if claimed.length = count then pure (some claimed)
  else do
    releaseSlots box claimed
    pure none

def countUsed : List Slot → Code Nat
  | [] => pure 0
  | slot :: slots => do
    let used ← inspectSlot .scan slot
    let rest ← countUsed slots
    pure (if used then rest + 1 else rest)

def usedSlots (root : Root) : Code Nat :=
  Program.tryCatch (do countUsed (← readdir root)) (fun _ => pure 0)

def usedCapacity : Code Nat := usedSlots .box

/-- What an acquisition ends with: `true` with the slots it claimed, or `false`. -/
inductive Grant
  | leased (slots : List Slot)
  | refused
deriving DecidableEq, Repr

/-- One more root claimed after `claimed`, all of it released where that fails. -/
def claimRoot (request : AdmissionRequest) (root : Root) (limit : Int) (claimed : List Slot)
    (rest : List Slot → Code Grant) : Code Grant := do
  mkdirRoot root
  match ← claimSlots box request root limit 1 with
  | none => do
    releaseSlots box claimed
    pure .refused
  | some slots => rest slots

def claimCapacity (request : AdmissionRequest) : Code (Option (List Slot)) := do
  let used ← usedCapacity
  if (used : Int) + request.weight ≤ box.limit then claimSlots box request .box box.limit request.weight.toNat
  else pure none

def acquireCapacity (request : AdmissionRequest) (claimed : List Slot) : Code Grant :=
  claimRoot box request .capacityMutation 1 claimed (fun mutation => do
    let global ← Program.tryFinally (claimCapacity box request) (releaseSlots box mutation)
    match global with
    | none => do
      releaseSlots box claimed
      pure .refused
    | some slots => pure (.leased (claimed ++ slots)))

def acquireProvider (request : AdmissionRequest) (claimed : List Slot) : Code Grant :=
  claimRoot box request (.providers (sha256 request.agentId)) (request.agentLimit.getD 256) claimed
    (fun provider => acquireCapacity box request (claimed ++ provider))

def acquireTarget (request : AdmissionRequest) (claimed : List Slot) : Code Grant :=
  match request.targetId, request.targetLimit with
  | some targetId, some targetLimit =>
    if targetId ≠ "" ∧ targetLimit ≠ 0 then
      claimRoot box request (.targets (sha256 targetId)) targetLimit claimed
        (fun target => acquireProvider sha256 box request (claimed ++ target))
    else acquireProvider sha256 box request claimed
  | _, _ => acquireProvider sha256 box request claimed

def acquireExclusive (request : AdmissionRequest) : Code Grant :=
  match request.exclusiveGroup with
  | some group =>
    if group ≠ "" then
      claimRoot box request (.exclusive (sha256 group)) 1 [] (fun exclusive => acquireTarget sha256 box request exclusive)
    else acquireTarget sha256 box request []
  | none => acquireTarget sha256 box request []

/-- `acquire` of a session that holds nothing. -/
def acquire (request : AdmissionRequest) : Code Grant :=
  if request.weight < 1 ∨ (box.limit : Int) < request.weight then pure .refused
  else acquireExclusive sha256 box request

end Admission
end Wollipog

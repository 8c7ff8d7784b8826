import Wollipog.Lib.OrdMap
import Wollipog.Lib.Run
import Wollipog.Admission.Claims
/-!
# Box — the processes of a box over its slot directories

Each process performs the primitives of one operation after the other, with any other process or a crash between two
of them.
-/
namespace Wollipog
namespace Admission

open Resume

/-- A slot directory: the acquisition that made it, and its `owner.json` once that is written whole. -/
structure Dir where
  call : Nat
  owner : Option SlotOwner
deriving DecidableEq, Repr

/-- What `held` says of one session. -/
structure Lease where
  call : Nat
  request : AdmissionRequest
  slots : List Slot
deriving DecidableEq, Repr

inductive Operation
  | acquiring (request : AdmissionRequest) (code : Code Grant)
  | releasing (code : Code Unit)

def Operation.pending : Operation → Option (Call × (Answer → Operation))
  | .acquiring request (.call o k) => some (o, fun a => .acquiring request (k a))
  | .releasing (.call o k) => some (o, fun a => .releasing (k a))
  | _ => none

structure Running where
  call : Nat
  mine : Mine
  operation : Operation

structure Process where
  box : BoxAdmission
  held : OrdMap String Lease
  running : Option Running

/-- The directories, the live processes by their pids, the acquisitions begun, and the highest limit configured. -/
structure World where
  dirs : OrdMap Slot Dir
  live : OrdMap Int Process
  calls : Nat
  highest : Nat

/-- Whether a primitive throws, a pid outside of the box is alive, a directory is young. -/
structure Choice where
  throws : Bool
  alive : Bool
  young : Bool
deriving DecidableEq, Repr

def answer (w : World) (x : Choice) : Call → Answer
  | .mkdirRoot _ => if x.throws then .threw else .done
  | .mkdirSlot slot => if x.throws then .threw else if (w.dirs.get slot).isSome then .exists else .done
  | .writeOwner slot _ => if x.throws then .threw else if (w.dirs.get slot).isSome then .done else .threw
  | .readOwner _ slot =>
    if x.throws then .threw
    else
      match (w.dirs.get slot).bind Dir.owner with
      | some owner => .owner owner
      | none => .threw
  | .kill pid => .flag ((w.live.get pid).isSome || x.alive)
  | .stat slot => if x.throws then .threw else if (w.dirs.get slot).isSome then .flag x.young else .threw
  | .rm _ _ => if x.throws then .threw else .done
  | .readdir root => if x.throws then .threw else .slots (w.dirs.keys.filter (fun slot => slot.root = root))

def effect (dirs : OrdMap Slot Dir) (call : Nat) : Call → Answer → OrdMap Slot Dir
  | .mkdirSlot slot, .done => dirs.set slot ⟨call, none⟩
  | .writeOwner slot owner, .done => dirs.modify slot (fun dir => { dir with owner := some owner })
  | .rm _ slot, .done => dirs.erase slot
  | _, _ => dirs

inductive Event
  | start (pid : Int) (token : String) (limit : Nat)
  | crash (pid : Int)
  | setLimit (pid limit : Int)
  | acquire (pid : Int) (request : AdmissionRequest)
  | release (pid : Int) (sessionId : String)
  | perform (pid : Int) (x : Choice)
  | finish (pid : Int)

inductive Obs
  | granted (call : Nat)
  | failed (call : Nat)
deriving DecidableEq, Repr

def World.put (w : World) (pid : Int) (p : Process) : World := { w with live := w.live.set pid p }

def Running.finish (p : Process) (r : Running) : Option (Process × List Obs) :=
  match r.operation with
  | .acquiring request (.ret (.leased slots)) =>
    some ({ p with held := p.held.set request.sessionId ⟨r.call, request, slots⟩, running := none }, [.granted r.call])
  | .acquiring _ (.ret .refused) => some ({ p with running := none }, [.failed r.call])
  | .acquiring _ (.throw _) => some ({ p with running := none }, [.failed r.call])
  | .releasing (.ret _) => some ({ p with running := none }, [])
  | .releasing (.throw _) => some ({ p with running := none }, [])
  | _ => none

def stepIdle (sha256 : String → String) (w : World) (p : Process) : Event → Option World
  | .setLimit pid limit =>
    if limit < 1 ∨ 256 < limit then some w
    else
      let limit := limit.toNat
      some { w.put pid { p with box := { p.box with limit := limit } } with highest := max w.highest limit }
  | .acquire pid request =>
    if (p.held.get request.sessionId).isSome then some w
    else
      let running := ⟨w.calls, Mine.nothing, .acquiring request (acquire sha256 p.box request)⟩
      some { w.put pid { p with running := some running } with calls := w.calls + 1 }
  | .release pid sessionId =>
    match p.held.get sessionId with
    | none => some w
    | some lease =>
      let running := ⟨lease.call, ⟨lease.slots, none⟩, .releasing (releaseSlots p.box lease.slots)⟩
      some (w.put pid { p with held := p.held.erase sessionId, running := some running })
  | _ => none

def stepRunning (w : World) (p : Process) (r : Running) : Event → Option (World × List Obs)
  | .perform pid x =>
    match r.operation.pending with
    | none => none
    | some (o, k) =>
      let a := answer w x o
      let running := ⟨r.call, r.mine.next o a, k a⟩
      some ({ w.put pid { p with running := some running } with dirs := effect w.dirs r.call o a }, [])
  | .finish pid => (r.finish p).map (fun e => (w.put pid e.1, e.2))
  | _ => none

def Event.pid : Event → Int
  | .start pid _ _ | .crash pid | .setLimit pid _ | .acquire pid _ | .release pid _ | .perform pid _ | .finish pid => pid

def step (sha256 : String → String) (w : World) (e : Event) : Option (World × List Obs) :=
  match e, w.live.get e.pid with
  | .start pid token limit, none =>
    if pid ≤ 0 then none
    else some ({ w.put pid ⟨⟨pid, token, limit⟩, .empty, none⟩ with highest := max w.highest limit }, [])
  | .crash pid, some _ => some ({ w with live := w.live.erase pid }, [])
  | e, some p =>
    match p.running with
    | none => (stepIdle sha256 w p e).map (fun w => (w, []))
    | some r => stepRunning w p r e
  | _, none => none

def World.fresh : World := ⟨.empty, .empty, 0, 0⟩

/-- The slots that a process owns, by a lease of a session or in the operation it is at, and whose they are. -/
inductive Process.Owns (p : Process) : Option String → Nat → List Slot → Prop
  | lease {sessionId : String} {lease : Lease} (h : p.held.get sessionId = some lease) :
      p.Owns (some sessionId) lease.call lease.slots
  | running {r : Running} (h : p.running = some r) : p.Owns none r.call r.mine.all

def Owns (w : World) (pid : Int) (who : Option String) (call : Nat) (slots : List Slot) : Prop :=
  ∃ p, w.live.get pid = some p ∧ p.Owns who call slots

def Holds (w : World) (pid : Int) (sessionId : String) (lease : Lease) : Prop :=
  ∃ p, w.live.get pid = some p ∧ p.held.get sessionId = some lease

def World.weight (w : World) : Int :=
  (w.live.entries.map (fun e => (e.2.held.entries.map (fun l => l.2.request.weight)).sum)).sum

end Admission
end Wollipog

import Wollipog.Lib.Run
/-!
# File — the worktree lease of one session, primitive by primitive

The lease operations are sequences of file-system primitives; a process stands between two of them (`Pc`). A created
file keeps its inode after its name is removed.
-/
namespace Wollipog
namespace Lease

/-- What `JSON.stringify({ owner, pid })` wrote; a process is its pid. -/
structure Record where
  owner : String
  pid : Nat
  deriving DecidableEq, Repr

inductive Content
  | unparsable
  | record (r : Record)
  deriving DecidableEq, Repr

structure File where
  inode : Nat
  content : Content
  deriving DecidableEq, Repr

inductive Pc
  | idle
  | opening (owner : String) (attempt : Nat)
  | writing (owner : String) (inode : Nat)
  | reading (owner : String) (attempt : Nat)
  | probing (owner : String) (attempt : Nat) (existing : Record)
  | rereading (owner : String) (attempt : Nat) (existing : Record)
  | removing (owner : String) (attempt : Nat) (existing : Record)
  | reviewing (fromOwner toOwner : String)
  | checking (fromOwner toOwner : String)
  | replacing (fromOwner toOwner : String)
  | releasing (owner : String)
  | unlinking (owner : String)
  deriving DecidableEq, Repr

structure World where
  path : Option File
  inodes : Nat
  alive : Nat → Bool
  pc : Nat → Pc

/-- What an observer sees: a call that returned true, a lease given up or handed on, and a death. -/
inductive Obs
  | acquired (owner : String)
  | refused (owner : String)
  | transferred (fromOwner toOwner : String)
  | released (owner : String)
  | died (p : Nat)
  deriving DecidableEq, Repr

def World.goto (w : World) (p : Nat) (pc : Pc) : World := { w with pc := Function.update w.pc p pc }

def World.returns (w : World) (p : Nat) (o : Obs) : World × List Obs := (w.goto p .idle, [o])

def World.create (w : World) (p : Nat) (owner : String) : World :=
  { w with path := some ⟨w.inodes, .unparsable⟩, inodes := w.inodes + 1 }.goto p (.writing owner w.inodes)

/-- A write to an open file: seen at the name only if the name still is that file's. -/
def World.write (w : World) (inode : Nat) (r : Record) : World :=
  { w with path := w.path.map (fun f => if f.inode = inode then ⟨f.inode, .record r⟩ else f) }

def World.content (w : World) : Option Content := w.path.map File.content

/-- A process performs its next primitive; `probed` is what a probe finds of a dead process. -/
def perform (w : World) (p : Nat) (probed : Bool) : Option (World × List Obs) :=
  match w.pc p with
  | .idle => none
  | .opening owner attempt =>
    match w.path with
    | none => some (w.create p owner, [])
    | some _ => some (w.goto p (.reading owner attempt), [])
  | .writing owner inode => some ((w.write inode ⟨owner, p⟩).returns p (.acquired owner))
  | .reading owner attempt =>
    match w.content with
    | some (.record existing) =>
      if existing.owner = owner then some (w.returns p (.acquired owner))
      else if existing.pid = 0 then some (w.returns p (.refused owner))
      else some (w.goto p (.probing owner attempt existing), [])
    | _ => some (w.returns p (.refused owner))
  | .probing owner attempt existing =>
    if w.alive existing.pid || probed then some (w.returns p (.refused owner))
    else some (w.goto p (.rereading owner attempt existing), [])
  | .rereading owner attempt existing =>
    if w.content = some (.record existing) then some (w.goto p (.removing owner attempt existing), [])
    else some (w.returns p (.refused owner))
  | .removing owner attempt _ =>
    match w.path with
    | none => some (w.returns p (.refused owner))
    | some _ =>
      let w := { w with path := none }
      if attempt + 1 < 2 then some (w.goto p (.opening owner (attempt + 1)), []) else some (w.returns p (.refused owner))
  | .reviewing fromOwner toOwner =>
    if w.content = some (.record ⟨fromOwner, p⟩) ∧ 0 < p then some (w.goto p (.checking fromOwner toOwner), [])
    else some (w.goto p .idle, [])
  | .checking fromOwner toOwner =>
    if w.content = some (.record ⟨fromOwner, p⟩) then some (w.goto p (.replacing fromOwner toOwner), []) else some (w.goto p .idle, [])
  | .replacing fromOwner toOwner =>
    some ({ w with path := some ⟨w.inodes, .record ⟨toOwner, p⟩⟩, inodes := w.inodes + 1 }.returns p
      (.transferred fromOwner toOwner))
  | .releasing owner =>
    match w.content with
    | some (.record existing) =>
      if existing.owner = owner then some (w.goto p (.unlinking owner), []) else some (w.goto p .idle, [])
    | _ => some (w.goto p .idle, [])
  | .unlinking owner =>
    match w.path with
    | none => some (w.goto p .idle, [])
    | some _ => some ({ w with path := none }.returns p (.released owner))

/-- The next primitive of a process throws, other than as `perform` says. -/
def throws (w : World) (p : Nat) : Option (World × List Obs) :=
  match w.pc p with
  | .idle => none
  | .opening owner _ | .writing owner _ | .reading owner _ | .probing owner _ _ | .rereading owner _ _ | .removing owner _ _ =>
    some (w.returns p (.refused owner))
  | .reviewing _ _ | .checking _ _ | .replacing _ _ | .releasing _ | .unlinking _ => some (w.goto p .idle, [])

inductive Event
  | acquire (p : Nat) (owner : String)
  | transfer (p : Nat) (fromOwner toOwner : String)
  | release (p : Nat) (owner : String)
  | perform (p : Nat) (probed : Bool)
  | throws (p : Nat)
  | die (p : Nat)
  deriving DecidableEq, Repr

/-- A call begins in a process that is alive and in no other, for an owner of that process. -/
def begins (home : String → Nat) (w : World) (p : Nat) (owner : String) (pc : Pc) : Option (World × List Obs) :=
  if w.alive p = true ∧ w.pc p = .idle ∧ home owner = p then some (w.goto p pc, []) else none

/-- `home` is the process of each owner. -/
def step (home : String → Nat) (w : World) : Event → Option (World × List Obs)
  | .acquire p owner => begins home w p owner (.opening owner 0)
  | .transfer p fromOwner toOwner => if home toOwner = p then begins home w p fromOwner (.reviewing fromOwner toOwner) else none
  | .release p owner => begins home w p owner (.releasing owner)
  | .perform p probed => if w.alive p then perform w p probed else none
  | .throws p => if w.alive p then throws w p else none
  | .die p => if w.alive p then some ({ w with alive := Function.update w.alive p false }, [.died p]) else none

structure Begun (home : String → Nat) (w : World) : Prop where
  idle : ∀ p, w.pc p = .idle
  named : ∀ r, w.content = some (.record r) → home r.owner = r.pid
  fresh : ∀ f, w.path = some f → f.inode < w.inodes

end Lease
end Wollipog

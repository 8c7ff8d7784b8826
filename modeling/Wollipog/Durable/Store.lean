import Wollipog.Durable.Record
import Wollipog.Lib.OrdMap
/-!
# Store — the durable command journal and its owners

A `claim` reads the clock and the lease before the command lock; what runs under the lock is one step. `prune` takes
no lock: it fixes the time and the listing and then removes one file at a time.
-/
namespace Wollipog
namespace Durable

/-- A record file: what `validRecord` accepts, or anything else. -/
inductive Entry
  | valid (r : Record)
  | malformed
deriving DecidableEq

abbrev Journal := OrdMap String Entry

/-- `read`: the record of a command id, when it is valid. -/
def read (j : Journal) (commandId : String) : Option Record :=
  match j.get commandId with
  | some (.valid r) => some r
  | _ => none

/-- How a record write ends: it may throw before or after the new record is visible. -/
inductive Fault | ok | before | after
deriving DecidableEq, Repr

/-- What a locked section did: the journal, the records it wrote over and wrote, and what it returned or threw. -/
structure Locked (α : Type) where
  journal : Journal
  written : Option (Record × Record)
  result : Except String α

inductive How (α : Type)
  | busy
  | runs (fault : α)

def transitionLocked (self : String) (now : Int) (j : Journal) (prior : Record) (state : State) (patch : Patch)
    (takeOwnership : Bool) (fault : Fault) : Locked Record :=
  match read j prior.commandId with
  | none => ⟨j, none, .error "durable command receipt changed concurrently"⟩
  | some current =>
    match transitionNext self now current prior state patch takeOwnership with
    | .error e => ⟨j, none, .error e⟩
    | .ok next =>
      match fault with
      | .before => ⟨j, none, .error "write failed"⟩
      | .after => ⟨j.set next.commandId (.valid next), some (current, next), .error "write failed"⟩
      | .ok => ⟨j.set next.commandId (.valid next), some (current, next), .ok next⟩

def transition (self : String) (now : Int) (j : Journal) (prior : Record) (state : State) (patch : Patch) :
    How Fault → Locked Record
  | .busy => ⟨j, none, .error "durable command receipt is busy; retry shortly"⟩
  | .runs fault => transitionLocked self now j prior state patch false fault

/-- The body of `recoverUnsubmittedSteering` under the command lock. -/
def recoverLocked (self : String) (now : Int) (j : Journal) (prior : Record) (fault : Fault) :
    Locked (Option Record) :=
  match read j prior.commandId with
  | none => ⟨j, none, .ok none⟩
  | some current =>
    if prior.kind ≠ .answerRecoveredQuestion ∨ prior.state ≠ .queued ∨ prior.userEventSeq ≠ none ∨
        current.ownerId ≠ self ∨ current.ownerId ≠ prior.ownerId ∨ current.commandId ≠ prior.commandId ∨
        current.executionId ≠ prior.executionId ∨ current.kind ≠ prior.kind ∨ current.sessionId ≠ prior.sessionId ∨
        current.payloadHmac ≠ prior.payloadHmac ∨ current.userEventSeq ≠ none then ⟨j, none, .ok none⟩
    else
      let unchanged := decide (current.revision = prior.revision) && current.state == .queued &&
        current.steeringPending != some true
      let publishedFence := decide (current.revision = prior.revision + 1) && current.state == .started &&
        current.steeringPending == some true
      if !unchanged && !publishedFence then ⟨j, none, .ok none⟩
      else
        let r := transitionLocked self now j current .queued { steeringPending := some false } false fault
        ⟨r.journal, r.written, r.result.map some⟩

def recoverUnsubmittedSteering (self : String) (now : Int) (j : Journal) (prior : Record) :
    How Fault → Locked (Option Record)
  | .busy => ⟨j, none, .ok none⟩
  | .runs fault => recoverLocked self now j prior fault

/-! ## claim -/

inductive Claim
  | new (receipt : Receipt)
  | reclaimed (receipt : Receipt)
  | duplicate (receipt : Receipt)
  | conflict (receipt : Receipt)
  | busy
deriving DecidableEq

/-- `/^[A-Za-z0-9][A-Za-z0-9:._-]{0,127}$/` -/
def commandIdOk (s : String) : Bool :=
  match s.toList with
  | [] => false
  | c :: cs => c.isAlphanum && decide (cs.length ≤ 127) && cs.all (fun d => d.isAlphanum || ":._-".toList.contains d)

/-- What the store takes from elsewhere: the shape of a message, and its two digests. -/
structure Env where
  isDurableSessionCommandMessage : Message → Bool
  sha256 : String → String
  hmac : String → String

def validateMessage (env : Env) (m : Message) (now : Int) : Option (ErrorCode × String) :=
  if !env.isDurableSessionCommandMessage m then some (.invalidCommand, "durable command envelope is malformed")
  else if !commandIdOk m.commandId || !commandIdOk m.executionId then
    some (.invalidCommand, "durable command identity is invalid")
  else if m.expiresAt ≤ now then some (.commandExpired, "durable command has expired")
  else if !Js.isSha256Hex m.payloadDigest then some (.invalidCommand, "durable command payload digest is invalid")
  else none

/-- The answer of `claim` before any lock: a rejected message. -/
def rejection (env : Env) (m : Message) (now : Int) : Option Receipt :=
  match validateMessage env m now with
  | some (code, error) => some (failedReceipt m code error)
  | none =>
    if env.sha256 m.command.canonicalJson ≠ m.payloadDigest then
      some (failedReceipt m .invalidCommand "durable command payload digest does not match")
    else none

def newRecord (env : Env) (self : String) (m : Message) (now : Int) : Record where
  commandId := m.commandId
  executionId := m.executionId
  kind := m.command.kind
  sessionId := m.command.sessionId
  payloadHmac := env.hmac m.command.canonicalJson
  state := .accepted
  revision := 1
  ownerId := self
  createdAt := now
  updatedAt := now
  expiresAt := m.expiresAt
  error := none
  code := none
  userEventSeq := none
  steeringPending := none

/-- The record of a file that `prune` removes. -/
def expired (now : Int) : Entry → Bool
  | .valid r => decide (r.expiresAt < now)
  | .malformed => false

/-- The files one `prune` removes at time `now`; when it throws, the first `n` of them. -/
def pruned (j : Journal) (now : Int) (cut : Option Nat) : List String :=
  let ids := (j.filter (fun _ e => expired now e)).keys
  match cut with
  | none => ids
  | some n => ids.take n

def removeFiles (j : Journal) (ids : List String) : Journal := ids.foldl (fun j id => j.erase id) j

/-- How a section of `claim` fails, when it does: in its prune, or in its record write. -/
structure ClaimFault where
  prune : Option Nat := none
  write : Fault := .ok

/-- A section of `claim`: what its prune removed, what it wrote and over which record, and its answer. -/
structure Section where
  journal : Journal
  removed : List String
  written : Option (Option Record × Record)
  opens : Option Record
  answer : Except String Claim

def createRecord (j : Journal) (removed : List String) (record : Record) : Fault → Section
  | .before => ⟨j, removed, none, none, .error "write failed"⟩
  | .after => ⟨j.set record.commandId (.valid record), removed, some (none, record), none, .error "write failed"⟩
  | .ok => ⟨j.set record.commandId (.valid record), removed, some (none, record), some record,
      .ok (.new (receipt record false))⟩

/-- A reclaim of a record nobody works on: uncertain once started, and otherwise accepted under a new handle. -/
def takeOver (self : String) (clock : Int) (j : Journal) (existing : Record) (startedError : String) (fault : Fault) :
    Section :=
  if existing.state = .started then
    let r := transitionLocked self clock j existing .uncertain { error := some startedError } true fault
    ⟨r.journal, [], r.written.map (fun w => (some w.1, w.2)), none, r.result.map (fun u => .duplicate (receipt u true))⟩
  else
    let r := transitionLocked self clock j existing .accepted {} true fault
    ⟨r.journal, [], r.written.map (fun w => (some w.1, w.2)), r.result.toOption,
      r.result.map (fun u => .reclaimed (receipt u true))⟩

def answer (j : Journal) (c : Claim) : Section := ⟨j, [], none, none, .ok c⟩

/-- What a section knows of its process: the owner, its active handle of the command, and its limit. -/
structure Owner where
  ownerId : String
  active : Bool
  maxReceipts : Nat

/-- The body of `claim` under the lock. `now` was read before the lock, `clock` is the time of the write. -/
def claimLocked (env : Env) (self : Owner) (ownerIsLive : String → Bool) (now clock : Int) (j : Journal) (m : Message)
    (fault : ClaimFault) : Section :=
  match read j m.commandId with
  | none =>
    if (j.get m.commandId).isSome then
      answer j (.conflict (failedReceipt m .invalidCommand
        "durable command receipt is malformed; refusing to overwrite its identity"))
    else if j.size < self.maxReceipts then createRecord j [] (newRecord env self.ownerId m now) fault.write
    else
      let removed := pruned j now fault.prune
      let j' := removeFiles j removed
      if fault.prune.isSome then ⟨j', removed, none, none, .error "remove failed"⟩
      else if j'.size < self.maxReceipts then createRecord j' removed (newRecord env self.ownerId m now) fault.write
      else ⟨j', removed, none, none,
        .ok (.conflict (failedReceipt m .receiptStoreFull "durable command receipt store is full"))⟩
  | some existing =>
    if existing.payloadHmac ≠ env.hmac m.command.canonicalJson ∨ existing.executionId ≠ m.executionId ∨
        existing.kind ≠ m.command.kind ∨ existing.sessionId ≠ m.command.sessionId then
      answer j (.conflict { receipt existing true with
        state := .failed, error := some "command id is already bound to a different payload",
        code := some .commandIdConflict })
    else if isTerminal existing.state then answer j (.duplicate (receipt existing true))
    else if existing.ownerId = self.ownerId then
      if self.active then answer j (.duplicate (receipt existing true))
      else takeOver self.ownerId clock j existing
        "runner lost the local command handle after provider submission began; command was not replayed" fault.write
    else if ownerIsLive existing.ownerId then answer j (.duplicate (receipt existing true))
    else takeOver self.ownerId clock j existing
      "runner restarted after provider submission began; command was not replayed" fault.write

/-! ## The owners -/

structure Handle where
  proc : Nat
  record : Record

inductive Doing
  | idle
  | claiming (now : Int) (m : Message)
  | recovering (h : Nat) (error : String)
  | pruning (now : Int) (files : List String)

structure Proc where
  ownerId : String
  maxReceipts : Nat
  ownerStaleMs : Int
  /-- `activeHandles` -/
  active : OrdMap String Nat
  doing : Doing

structure World where
  clock : Int
  journal : Journal
  leases : OrdMap String Int
  procs : OrdMap Nat Proc
  handles : OrdMap Nat Handle
  nextHandle : Nat

inductive Op
  | queued (error : Option String) (code : Option ErrorCode)
  | beginSteering
  | steeringRejected
  | started (userEventSeq : Option Int)
  | completed
  | failed (error : String) (code : Option ErrorCode)
  | uncertain (error : String)
deriving DecidableEq

def Op.request (record : Record) : Op → Except String (State × Patch)
  | .queued error code => .ok (.queued, { error, code })
  | .beginSteering =>
    if record.kind ≠ .answerRecoveredQuestion ∨ record.state ≠ .queued then
      .error "only a queued question answer can begin durable steering"
    else .ok (.started, { steeringPending := some true })
  | .steeringRejected =>
    if record.steeringPending ≠ some true then .error "no durable steering attempt to return to the queue"
    else .ok (.queued, { steeringPending := some false })
  | .started userEventSeq => .ok (.started, { userEventSeq, steeringPending := some false })
  | .completed => .ok (.completed, {})
  | .failed error code => .ok (.failed, { error := some error, code })
  | .uncertain error => .ok (.uncertain, { error := some error })

def Op.terminal : Op → Bool
  | .completed | .failed .. | .uncertain .. => true
  | _ => false

/-- The writer of a record: a handle, or a claim of a process with the handle it opened. -/
inductive Writer
  | handle (h : Nat)
  | claim (p : Nat) (opened : Option Nat)
deriving DecidableEq

inductive Obs
  | created (p : Nat) (opened : Option Nat) (record : Record)
  | wrote (by_ : Writer) (prev next : Record)
  | removed (commandId : String)
  | claimed (p : Nat) (answer : Except String Claim)
  | replied (h : Nat) (answer : Except String Receipt)
  | steered (h : Nat) (answer : Except String Bool)
  | updates (p : Nat) (receipts : List Receipt)
  | crashed (p : Nat)
deriving DecidableEq

inductive Event
  | tick (now : Int)
  /-- A process starts; its timer and its claims refresh its lease. -/
  | boot (p : Nat) (ownerId : String) (maxReceipts : Nat) (ownerStaleMs : Int)
  | heartbeat (p : Nat)
  | crash (p : Nat)
  | claim (p : Nat) (m : Message)
  | claimSection (p : Nat) (how : How ClaimFault)
  | op (h : Nat) (op : Op) (how : How Fault)
  | recover (p : Nat) (how : How Fault)
  | prune (p : Nat)
  | pruneNext (p : Nat) (fails : Bool)
  | recentUpdates (p : Nat)
  /-- A process gives up what it is in the middle of: a primitive outside any section threw. -/
  | abandon (p : Nat)

def World.setProc (w : World) (p : Nat) (q : Proc) : World := { w with procs := w.procs.set p q }

def World.ownerIsLive (w : World) (q : Proc) (now : Int) (ownerId : String) : Bool :=
  match w.leases.get ownerId with
  | some updatedAt => decide (now - updatedAt < q.ownerStaleMs)
  | none => false

/-- `releaseHandle`: only while the handle is the active one. -/
def Proc.release (q : Proc) (commandId : String) (h : Nat) : Proc :=
  if q.active.get commandId = some h then { q with active := q.active.erase commandId } else q

def startClaim (env : Env) (w : World) (p : Nat) (q : Proc) (m : Message) : World × List Obs :=
  match rejection env m w.clock with
  | some r => (w, [.claimed p (.ok (.conflict r))])
  | none =>
    ({ w with leases := w.leases.set q.ownerId w.clock }.setProc p { q with doing := .claiming w.clock m }, [])

def Section.wrote (s : Section) (p next : Nat) : List Obs :=
  match s.written with
  | none => []
  | some (none, r) => [.created p (s.opens.map (fun _ => next)) r]
  | some (some prev, r) => [.wrote (.claim p (s.opens.map (fun _ => next))) prev r]

def finishClaim (env : Env) (w : World) (p : Nat) (q : Proc) (now : Int) (m : Message) (fault : ClaimFault) :
    World × List Obs :=
  let s := claimLocked env ⟨q.ownerId, (q.active.get m.commandId).isSome, q.maxReceipts⟩ (w.ownerIsLive q now) now
    w.clock w.journal m fault
  let o := s.removed.map .removed ++ s.wrote p w.nextHandle ++ [.claimed p s.answer]
  match s.opens with
  | none => ({ w with journal := s.journal }.setProc p { q with doing := .idle }, o)
  | some r =>
    ({ w with
        journal := s.journal
        handles := w.handles.set w.nextHandle ⟨p, r⟩
        nextHandle := w.nextHandle + 1 }.setProc p
      { q with doing := .idle, active := q.active.set r.commandId w.nextHandle }, o)

def wroteBy (h : Nat) (written : Option (Record × Record)) : List Obs :=
  (written.map (fun w => Obs.wrote (.handle h) w.1 w.2)).toList

def Op.reply (op : Op) (h : Nat) (r : Except String Record) : Obs :=
  if op = .beginSteering then .steered h (r.map (fun _ => true)) else .replied h (r.map (fun n => receipt n false))

def performOp (w : World) (h : Nat) (x : Handle) (q : Proc) (op : Op) (how : How Fault) : World × List Obs :=
  match op.request x.record with
  | .error e => (w, [op.reply h (.error e)])
  | .ok (state, patch) =>
    let r := transition q.ownerId w.clock w.journal x.record state patch how
    let w' := { w with journal := r.journal }
    match r.result with
    | .ok n =>
      ({ w' with handles := w.handles.set h { x with record := n } }.setProc x.proc
        (if op.terminal then q.release n.commandId h else q), wroteBy h r.written ++ [op.reply h (.ok n)])
    | .error e =>
      let q' := q.release x.record.commandId h
      if op = .beginSteering then (w'.setProc x.proc { q' with doing := .recovering h e }, wroteBy h r.written)
      else (w'.setProc x.proc q', wroteBy h r.written ++ [op.reply h (.error e)])

/-- The second half of a failed `beginSteering`. -/
def recoverSteering (w : World) (h : Nat) (x : Handle) (q : Proc) (error : String) (how : How Fault) : World × List Obs :=
  let r := recoverUnsubmittedSteering q.ownerId w.clock w.journal x.record how
  let w' := { w with journal := r.journal }
  match r.result with
  | .ok (some n) =>
    ({ w' with handles := w.handles.set h { x with record := n } }.setProc x.proc
      { q with doing := .idle, active := q.active.set n.commandId h }, wroteBy h r.written ++ [.steered h (.ok false)])
  | _ => (w'.setProc x.proc { q with doing := .idle }, wroteBy h r.written ++ [.steered h (.error error)])

def recentUpdates (j : Journal) (now : Int) : List Receipt :=
  j.entries.filterMap (fun e =>
    match e.2 with
    | .valid r => if r.expiresAt < now then none else some (receipt r true)
    | .malformed => none)

def pruneFile (w : World) (p : Nat) (q : Proc) (now : Int) (file : String) (files : List String) (fails : Bool) :
    World × List Obs :=
  let doing := if fails then .idle else .pruning now files
  if (w.journal.get file).any (expired now) then
    ({ w with journal := w.journal.erase file }.setProc p { q with doing }, [.removed file])
  else (w.setProc p { q with doing }, [])

def step (env : Env) (deadline : String → Int) (w : World) : Event → Option (World × List Obs)
  | .tick now => if w.clock ≤ now then some ({ w with clock := now }, []) else none
  | .boot p ownerId maxReceipts ownerStaleMs =>
    match w.procs.get p with
    | some _ => none
    | none =>
      some ({ w with leases := w.leases.set ownerId w.clock }.setProc p
        ⟨ownerId, maxReceipts, ownerStaleMs, .empty, .idle⟩, [])
  | .crash p =>
    match w.procs.get p with
    | none => none
    | some _ =>
      some ({ w with procs := w.procs.erase p, handles := w.handles.filter (fun _ x => decide (x.proc ≠ p)) },
        [.crashed p])
  | .op h op how =>
    match w.handles.get h with
    | none => none
    | some x =>
      match w.procs.get x.proc with
      | none => none
      | some q =>
        match q.doing with
        | .idle => some (performOp w h x q op how)
        | _ => none
  | .heartbeat p => (w.procs.get p).map (fun q => ({ w with leases := w.leases.set q.ownerId w.clock }, []))
  | .abandon p => (w.procs.get p).map (fun q => (w.setProc p { q with doing := .idle }, []))
  | .claim p m =>
    match w.procs.get p with
    | none => none
    | some q =>
      match q.doing with
      | .idle => if m.expiresAt = deadline m.commandId then some (startClaim env w p q m) else none
      | _ => none
  | .claimSection p how =>
    match w.procs.get p with
    | none => none
    | some q =>
      match q.doing, how with
      | .claiming now m, .runs fault => some (finishClaim env w p q now m fault)
      | .claiming _ _, .busy => some (w.setProc p { q with doing := .idle }, [.claimed p (.ok .busy)])
      | _, _ => none
  | .recover p how =>
    match w.procs.get p with
    | none => none
    | some q =>
      match q.doing with
      | .recovering h error => (w.handles.get h).map (fun x => recoverSteering w h x q error how)
      | _ => none
  | .prune p =>
    match w.procs.get p with
    | none => none
    | some q =>
      match q.doing with
      | .idle => some (w.setProc p { q with doing := .pruning w.clock w.journal.keys }, [])
      | _ => none
  | .pruneNext p fails =>
    match w.procs.get p with
    | none => none
    | some q =>
      match q.doing with
      | .pruning _ [] => some (w.setProc p { q with doing := .idle }, [])
      | .pruning now (file :: files) => some (pruneFile w p q now file files fails)
      | _ => none
  | .recentUpdates p => (w.procs.get p).map (fun _ => (w, [.updates p (recentUpdates w.journal w.clock)]))

end Durable
end Wollipog

import Wollipog.Lib.Catalog
import Wollipog.Receipts.Record
/-!
# Store — the receipt store of manual session commands and its three indexes

One store over one journal directory, with no other writer. Every record write may throw before or after the new file
is visible, and so may the lease.
-/
namespace Wollipog
namespace Receipts

/-- What the store takes from elsewhere: file names, the digest, and the collation of `localeCompare`. -/
structure Env where
  recordPath : String → String
  ownerLeasePath : String → String
  sha256 : String → String
  localeLe : String → String → Bool

structure Lease where
  ownerId : String
  updatedAt : Int
deriving DecidableEq, Repr

structure Store where
  ownerId : String
  maxReceipts : Nat
  ownerStaleMs : Int
  disk : OrdMap String (Option Record)
  leases : OrdMap String Lease
  knownRecordFiles : OrdMap String Unit
  expiresAtByInvocation : OrdMap String Int
  nonterminalCandidates : OrdMap String Unit
  /-- The record each handle holds, in the order the handles were made. -/
  handles : List Record
  activeHandles : OrdMap String Nat
deriving DecidableEq

inductive Fault | ok | before | after
deriving DecidableEq, Repr

inductive Lock | taken | busy | throws
deriving DecidableEq, Repr

/-- How one call goes: the clock at its start, at the heartbeat and at a transition, the lock, and what throws. -/
structure Turn where
  now : Int
  beat : Int
  clock : Int
  lock : Lock
  beatFault : Fault
  enrichFault : Fault
  writeFault : Fault
  removeFails : String → Bool
  syncFails : Bool

variable (env : Env)

def readFile (s : Store) (file : String) : Option Record := (s.disk.get file).bind (fun content => content.filter validRecord)

def indexRecord (s : Store) (r : Record) : Store :=
  { s with
    knownRecordFiles := s.knownRecordFiles.set (env.recordPath r.invocationId) ()
    expiresAtByInvocation := s.expiresAtByInvocation.set r.invocationId r.expiresAt
    nonterminalCandidates :=
      if isTerminal r.state then s.nonterminalCandidates.erase r.invocationId
      else s.nonterminalCandidates.set r.invocationId () }

def dropIndexedRecord (s : Store) (invocationId : String) : Store :=
  { s with
    knownRecordFiles := s.knownRecordFiles.erase (env.recordPath invocationId)
    expiresAtByInvocation := s.expiresAtByInvocation.erase invocationId
    nonterminalCandidates := s.nonterminalCandidates.erase invocationId }

/-- One file of `rebuildRecordIndex`. -/
def rebuildFile (s : Store) (file : String) : Store :=
  let s' := { s with knownRecordFiles := s.knownRecordFiles.set file () }
  match readFile s' file with
  | none => s'
  | some r => indexRecord env s' r

def rebuildRecordIndex (s : Store) (files : List String) : Store :=
  files.foldl (rebuildFile env) { s with
    knownRecordFiles := .empty, expiresAtByInvocation := .empty, nonterminalCandidates := .empty }

def read (s : Store) (invocationId : String) : Option Record × Store :=
  match readFile s (env.recordPath invocationId) with
  | some r => (some r, indexRecord env s r)
  | none =>
    (none, if (s.disk.get (env.recordPath invocationId)).isSome then s else dropIndexedRecord env s invocationId)

def writeFile (s : Store) (file : String) (r : Record) : Store := { s with disk := s.disk.set file (some r) }

/-- `writeAtomic`. -/
def writeAtomic (s : Store) (file : String) (r : Record) : Fault → Store × Except String Unit
  | .before => (s, .error "write failed")
  | .after => (writeFile s file r, .error "write failed")
  | .ok => (writeFile s file r, .ok ())

/-- `publishNew` and the repair around it. -/
def publishNew (s : Store) (file : String) (r : Record) (fault : Fault) : Store × Except String Unit :=
  let (s, result) := writeAtomic s file r fault
  match readFile s file with
  | some persisted => (indexRecord env s persisted, result)
  | none => (s, result)

def heartbeatOwner (s : Store) (now : Int) : Fault → Store × Except String Unit
  | .before => (s, .error "heartbeat failed")
  | .after => ({ s with leases := s.leases.set (env.ownerLeasePath s.ownerId) ⟨s.ownerId, now⟩ }, .error "heartbeat failed")
  | .ok => ({ s with leases := s.leases.set (env.ownerLeasePath s.ownerId) ⟨s.ownerId, now⟩ }, .ok ())

def ownerIsLive (s : Store) (ownerId : String) (now : Int) : Bool :=
  match s.leases.get (env.ownerLeasePath ownerId) with
  | none => false
  | some lease => lease.ownerId == ownerId && decide (now - lease.updatedAt < s.ownerStaleMs)

/-- How a loop of `prune` ended: the store, the files it removed, and whether a removal threw. -/
structure Pruned where
  store : Store
  removed : List String
  threw : Bool

def capped (maxRemovals : Option Nat) (removed : Nat) : Bool :=
  match maxRemovals with
  | none => false
  | some n => decide (n ≤ removed)

def pruneLoop (now : Int) (maxRemovals : Option Nat) (removeFails : String → Bool) :
    List (String × Int) → Store → List String → Pruned
  | [], s, removed => ⟨s, removed, false⟩
  | (invocationId, expiresAt) :: rest, s, removed =>
    if now ≤ expiresAt ∨ capped maxRemovals removed.length then pruneLoop now maxRemovals removeFails rest s removed
    else if removeFails (env.recordPath invocationId) then ⟨s, removed, true⟩
    else
      pruneLoop now maxRemovals removeFails rest
        (dropIndexedRecord env { s with disk := s.disk.erase (env.recordPath invocationId) } invocationId)
        (if (s.disk.get (env.recordPath invocationId)).isSome then removed ++ [env.recordPath invocationId] else removed)

def prune (s : Store) (now : Int) (maxRemovals : Option Nat) (removeFails : String → Bool) (syncFails : Bool) :
    Pruned × Except String Nat :=
  let p := pruneLoop env now maxRemovals removeFails s.expiresAtByInvocation.entries s []
  (p, if p.threw || (syncFails && !p.removed.isEmpty) then .error "prune failed" else .ok p.removed.length)

def transitionLocked (s : Store) (prior : Record) (state : State) (patch : Patch) (takeOwnership : Bool) (t : Turn) :
    Store × Except String Record :=
  match read env s prior.invocationId with
  | (none, s) => (s, .error "session command receipt changed concurrently")
  | (some current, s) =>
    match transitionNext s.ownerId t.clock current prior state patch takeOwnership with
    | .error e => (s, .error e)
    | .ok next =>
      match writeAtomic s (env.recordPath next.invocationId) next t.writeFault with
      | (s, .error e) => (s, .error e)
      | (s, .ok ()) => (indexRecord env s next, .ok next)

def transition (s : Store) (prior : Record) (state : State) (patch : Patch) (takeOwnership : Bool) (t : Turn) :
    Store × Except String Record :=
  match t.lock with
  | .throws => (s, .error "lock failed")
  | .busy => (s, .error "session command receipt is busy; retry shortly")
  | .taken => transitionLocked env s prior state patch takeOwnership t

/-! ## claim -/

inductive Claim
  | new (handle : Nat) (receipt : Receipt)
  | reclaimed (handle : Nat) (receipt : Receipt)
  | duplicate (receipt : Receipt)
  | conflict (receipt : Receipt)
  | busy
deriving DecidableEq

def openHandle (s : Store) (r : Record) : Nat × Store :=
  (s.handles.length, { s with
    handles := s.handles ++ [r], activeHandles := s.activeHandles.set r.invocationId s.handles.length })

/-- What a call of `claim` came to: the store, the files its prune removed, and its answer. -/
structure Claimed where
  store : Store
  removed : List String
  answer : Except String Claim

def makeRoom (s : Store) (t : Turn) : Pruned × Except String Bool :=
  if s.knownRecordFiles.size < s.maxReceipts then (⟨s, [], false⟩, .ok true)
  else
    match prune env s t.now none t.removeFails t.syncFails with
    | (p, .error e) => (p, .error e)
    | (p, .ok _) => (p, .ok (decide (p.store.knownRecordFiles.size < p.store.maxReceipts)))

def claimNew (s : Store) (m : Message) (t : Turn) : Claimed :=
  match makeRoom env s t with
  | (p, .error e) => ⟨p.store, p.removed, .error e⟩
  | (p, .ok false) =>
    ⟨p.store, p.removed, .ok (.conflict (failedReceipt m .receiptStoreFull "session command receipt store is full"))⟩
  | (p, .ok true) =>
    let r := newRecord s.ownerId t.now m
    match publishNew env p.store (env.recordPath m.invocationId) r t.writeFault with
    | (s, .error e) => ⟨s, p.removed, .error e⟩
    | (s, .ok ()) =>
      let (handle, s) := openHandle s r
      ⟨s, p.removed, .ok (.new handle (toReceipt r false r.requestId))⟩

def enrich (s : Store) (existing : Record) (m : Message) (t : Turn) : Store × Except String Record :=
  match existing.version with
  | .v2 => (s, .ok existing)
  | .v1 =>
    let r := enriched existing m
    match writeAtomic s (env.recordPath m.invocationId) r t.enrichFault with
    | (s, .error e) => (s, .error e)
    | (s, .ok ()) => (indexRecord env s r, .ok r)

def claimExisting (s : Store) (existing : Record) (m : Message) (t : Turn) : Store × Except String Claim :=
  if isTerminal existing.state then (s, .ok (.duplicate (toReceipt existing true m.requestId)))
  else if existing.ownerId = s.ownerId ∧ (s.activeHandles.get existing.invocationId).isSome then
    (s, .ok (.duplicate (toReceipt existing true m.requestId)))
  else if existing.ownerId ≠ s.ownerId ∧ ownerIsLive env s existing.ownerId t.now then
    (s, .ok (.duplicate (toReceipt existing true m.requestId)))
  else if existing.state = .started then
    match transitionLocked env s existing .uncertain
      { error := some "runner lost the command receipt after provider submission began; command was not replayed" }
      true t with
    | (s, .error e) => (s, .error e)
    | (s, .ok uncertain) => (s, .ok (.duplicate (toReceipt uncertain true m.requestId)))
  else
    match transitionLocked env s existing .accepted {} true t with
    | (s, .error e) => (s, .error e)
    | (s, .ok reclaimed) =>
      let (handle, s) := openHandle s reclaimed
      (s, .ok (.reclaimed handle (toReceipt reclaimed true m.requestId)))

def claimLocked (s : Store) (m : Message) (t : Turn) : Claimed :=
  match read env s m.invocationId with
  | (none, s) =>
    if (s.disk.get (env.recordPath m.invocationId)).isSome then
      ⟨s, [], .ok (.conflict (failedReceipt m .invalidCommand
        "session command receipt is malformed; refusing to overwrite its identity"))⟩
    else claimNew env s m t
  | (some existing, s) =>
    if !sameIdentity existing (newRecord s.ownerId t.now m) then
      ⟨s, [], .ok (.conflict { toReceipt existing true m.requestId with
        state := .rejected
        error := some "invocation id is already bound to a different payload or owner"
        code := some .commandIdConflict })⟩
    else
      match enrich env s existing m t with
      | (s, .error e) => ⟨s, [], .error e⟩
      | (s, .ok existing) =>
        let (s, answer) := claimExisting env s existing m t
        ⟨s, [], answer⟩

def claim (s : Store) (m : Message) (t : Turn) : Claimed :=
  match validateMessage m t.now with
  | some (code, error) => ⟨s, [], .ok (.conflict (failedReceipt m code error))⟩
  | none =>
    if sessionCommandInvocationPayloadDigest env.sha256 m ≠ m.payloadDigest then
      ⟨s, [], .ok (.conflict (failedReceipt m .invalidCommand "session command payload digest does not match"))⟩
    else
      match heartbeatOwner env s t.beat t.beatFault with
      | (s, .error e) => ⟨s, [], .error e⟩
      | (s, .ok ()) =>
        match t.lock with
        | .throws => ⟨s, [], .error "lock failed"⟩
        | .busy => ⟨s, [], .ok .busy⟩
        | .taken => claimLocked env s m t

inductive Marker
  | queued
  | started (userEventSeq : Option Int)
  | completed
  | failed (error : String) (code : Option ErrorCode)
  | uncertain (error : String)
deriving DecidableEq

def Marker.state : Marker → State
  | .queued => .queued
  | .started _ => .started
  | .completed => .completed
  | .failed _ _ => .rejected
  | .uncertain _ => .uncertain

def Marker.patch : Marker → Patch
  | .queued => {}
  | .started userEventSeq => { userEventSeq }
  | .completed => {}
  | .failed error code => { error := some error, code }
  | .uncertain error => { error := some error }

def releaseHandle (s : Store) (invocationId : String) (handle : Nat) : Store :=
  if s.activeHandles.get invocationId = some handle then
    { s with activeHandles := s.activeHandles.erase invocationId }
  else s

/-- A marker of a handle that holds `r`: a terminal one releases the handle, another one when it throws. -/
def mark (s : Store) (handle : Nat) (r : Record) (k : Marker) (t : Turn) : Store :=
  match transition env s r k.state k.patch false t with
  | (s, .error _) => releaseHandle s r.invocationId handle
  | (s, .ok next) =>
    let s := { s with handles := s.handles.set handle next }
    if isTerminal k.state then releaseHandle s next.invocationId handle else s

structure Recovery where
  message : Message
  state : State
deriving DecidableEq

/-- What `staleRecoveries` hands back of a record, when it does. -/
def recoverable (s : Store) (now : Int) (r : Record) : Option Recovery :=
  if r.expiresAt ≤ now ∨ (r.state ≠ .accepted ∧ r.state ≠ .queued ∧ r.state ≠ .started) then none
  else if r.ownerId = s.ownerId ∧ (s.activeHandles.get r.invocationId).isSome then none
  else if r.ownerId ≠ s.ownerId ∧ ownerIsLive env s r.ownerId now then none
  else (messageFromRecord r).map (fun m => ⟨m, r.state⟩)

def recoverLoop (now : Int) : List String → Store → List Recovery → Store × List Recovery
  | [], s, found => (s, found)
  | invocationId :: rest, s, found =>
    match readFile s (env.recordPath invocationId) with
    | none =>
      recoverLoop now rest
        (if (s.disk.get (env.recordPath invocationId)).isSome then
          { s with nonterminalCandidates := s.nonterminalCandidates.erase invocationId }
        else dropIndexedRecord env s invocationId) found
    | some r =>
      recoverLoop now rest (indexRecord env s r) (found ++ (recoverable env (indexRecord env s r) now r).toList)

def staleRecoveries (s : Store) (now : Int) : Store × List Recovery :=
  let (s', found) := recoverLoop env now s.nonterminalCandidates.keys s []
  (s', found.mergeSort (fun a b => env.localeLe a.message.invocationId b.message.invocationId))

/-- A store over a directory whose record files are listed in some order, at time `now`. -/
def openStore (ownerId : String) (maxReceipts : Nat) (ownerStaleMs : Int) (disk : OrdMap String (Option Record))
    (leases : OrdMap String Lease) (files : List String) (now : Int) : Store :=
  let s := rebuildRecordIndex env
    { ownerId, maxReceipts, ownerStaleMs, disk, leases
      knownRecordFiles := .empty, expiresAtByInvocation := .empty, nonterminalCandidates := .empty
      handles := [], activeHandles := .empty } files
  (heartbeatOwner env s now .ok).1

inductive Event
  | heartbeat (now : Int) (fault : Fault)
  | claim (m : Message) (t : Turn)
  | transition (prior : Record) (state : State) (patch : Patch) (takeOwnership : Bool) (t : Turn)
  | mark (handle : Nat) (k : Marker) (t : Turn)
  | prune (now : Int) (maxRemovals : Option Nat) (removeFails : String → Bool) (syncFails : Bool)
  | staleRecoveries (now : Int)
  | read (invocationId : String)
  | recentUpdates (files : List String)
  | reopen (ownerId : String) (files : List String) (now : Int)

inductive Obs
  | removed (file : String)
deriving DecidableEq

def listing (disk : OrdMap String (Option Record)) (files : List String) : Bool :=
  files.all (fun p => decide (p ∈ disk.keys)) && disk.keys.all (fun p => decide (p ∈ files))

def step (s : Store) : Event → Option (Store × List Obs)
  | .heartbeat now fault => some ((heartbeatOwner env s now fault).1, [])
  | .claim m t =>
    let c := claim env s m t
    some (c.store, c.removed.map .removed)
  | .transition prior state patch takeOwnership t => some ((transition env s prior state patch takeOwnership t).1, [])
  | .mark handle k t => (s.handles[handle]?).map (fun r => (mark env s handle r k t, []))
  | .prune now maxRemovals removeFails syncFails =>
    let p := (prune env s now maxRemovals removeFails syncFails).1
    some (p.store, p.removed.map .removed)
  | .staleRecoveries now => some ((staleRecoveries env s now).1, [])
  | .read invocationId => some ((read env s invocationId).2, [])
  | .recentUpdates files => if listing s.disk files then some (rebuildRecordIndex env s files, []) else none
  | .reopen ownerId files now =>
    if listing s.disk files then
      some (openStore env ownerId s.maxReceipts s.ownerStaleMs s.disk s.leases files now, [])
    else none

end Receipts
end Wollipog

import Wollipog.Lib.Run
/-!
# Lock — the writer lock of one session, primitive by primitive

The lock's operations are sequences of file-system primitives; a process stands between two of them (`Pc`). The lock
file holds its owner and its mtime is the last refresh; changes to it run inside the guard file, save a free
publication.
-/
namespace Wollipog
namespace Writer

def LOCK_STALE_MS : Nat := 60000

def LOCK_GUARD_ABANDONED_MS : Nat := 10000

/-- The processes of one host: a pid may be taken again after its process died. -/
structure Host where
  pid : Nat → Nat
  start : Nat → Option String
  owner : Nat → String
  breaker : Nat

structure LockFile where
  inode : Nat
  text : String
  mtimeMs : Nat
  deriving DecidableEq, Repr

/-- What `JSON.stringify({ pid, start, token })` wrote. -/
structure LockGuardRecord where
  pid : Nat
  start : Option String
  token : Nat
  deriving DecidableEq, Repr

structure GuardFile where
  inode : Nat
  record : Option LockGuardRecord
  mtimeMs : Nat
  deriving DecidableEq, Repr

/-- The function `withLockGuard` runs inside the guard. -/
inductive Section
  | take
  | takeFree
  | confirm
  | refresh
  | release
  deriving DecidableEq, Repr

/-- The next primitive of `withLockGuard` before its section. -/
inductive Entry
  | drafting
  | linking (tmp : GuardFile)
  | opening
  | writing (inode : Nat)
  | reading
  | dating (raw : Option LockGuardRecord)
  | probing (holder : LockGuardRecord) (ageMs : Nat)
  | starting (holder : LockGuardRecord)
  | rereading (observed : LockGuardRecord)
  | breaking (observed : LockGuardRecord)
  | waiting
  deriving DecidableEq, Repr

/-- The next primitive inside the guard; `stamp` is the time a touch wrote. -/
inductive Work
  | stating
  | reading (mtimeMs : Option Nat)
  | judging (mtimeMs : Nat)
  | copying (mtimeMs now : Nat)
  | replacing (mtimeMs now : Nat) (tmp : LockFile) (attempt : Nat)
  | drafting
  | linking (tmp : LockFile)
  | opening
  | writing (inode : Nat)
  | timing
  | touching (now : Nat)
  | removing
  | checking (stamp : Option Nat) (attempt : Nat)
  | leaving (stamp : Option Nat) (attempt : Nat)
  deriving DecidableEq, Repr

/-- The primitive a process performs next; `free` tells `acquireFreeLock` from `acquireLock`. -/
inductive Pc
  | idle
  | publishing (free : Bool)
  | linking (free : Bool) (tmp : LockFile)
  | entering (s : Section) (token : Nat) (e : Entry)
  | inside (s : Section) (token : Nat) (k : Work)
  deriving DecidableEq, Repr

structure World where
  lock : Option LockFile
  guard : Option GuardFile
  inodes : Nat
  tokens : Nat
  clock : Nat
  live : List Nat
  dead : List Nat
  pc : Nat → Pc

/-- What an observer sees: answers with their times, and the lock file a takeover replaced or a release removed. -/
inductive Obs
  | acquired (owner : String) (stamp returned : Nat)
  | refreshed (owner : String) (stamp returned : Nat)
  | refused (owner : String)
  | replaced (owner : String) (lock : Option LockFile) (now : Nat)
  | removed (owner : String) (lock : Option LockFile)
  deriving DecidableEq, Repr

namespace World

def goto (w : World) (p : Nat) (pc : Pc) : World := { w with pc := Function.update w.pc p pc }

end World

namespace Host

variable (h : Host)

def record (p token : Nat) : LockGuardRecord := ⟨h.pid p, h.start p, token⟩

def returns (w : World) (p : Nat) (s : Section) (stamp : Option Nat) : World × List Obs :=
  (w.goto p .idle,
    match s, stamp with
    | .release, _ => []
    | .refresh, some t => [.refreshed (h.owner p) t w.clock]
    | _, some t => [.acquired (h.owner p) t w.clock]
    | _, none => [.refused (h.owner p)])

/-- `withLockGuard` begins, with a fresh token. -/
def withLockGuard (w : World) (p : Nat) (s : Section) : World :=
  { w with tokens := w.tokens + 1 }.goto p (.entering s w.tokens .drafting)

def begins (w : World) (p : Nat) (s : Section) (token : Nat) : World :=
  w.goto p (.inside s token (match s with | .take | .takeFree => .stating | _ => .reading none))

/-- The section ends; `releaseLockGuard` begins. -/
def finishes (w : World) (p : Nat) (s : Section) (token : Nat) (stamp : Option Nat) : World :=
  w.goto p (.inside s token (.checking stamp 0))

/-- `activeLockGuards.has(token)` in a process. -/
def active (w : World) (p token : Nat) : Bool :=
  match w.pc p with
  | .inside _ _ (.checking _ _) | .inside _ _ (.leaving _ _) => false
  | .inside _ t _ => t == token
  | _ => false

/-- `withLockGuard` up to its section: create the guard, or wait, or break an abandoned one. -/
def enter (w : World) (p : Nat) (s : Section) (token : Nat) : Entry → Option (World × List Obs)
  | .drafting =>
    let tmp : GuardFile := ⟨w.inodes, some (h.record p token), w.clock⟩
    some ({ w with inodes := w.inodes + 1 }.goto p (.entering s token (.linking tmp)), [])
  | .linking tmp =>
    match w.guard with
    | none => some (begins { w with guard := some tmp } p s token, [])
    | some _ => some (w.goto p (.entering s token .reading), [])
  | .opening =>
    match w.guard with
    | none =>
      some ({ w with guard := some ⟨w.inodes, none, w.clock⟩, inodes := w.inodes + 1 }.goto p (.entering s token (.writing w.inodes)), [])
    | some _ => some (w.goto p (.entering s token .reading), [])
  | .writing inode =>
    let guard := w.guard.map (fun g => if g.inode = inode then ⟨inode, some (h.record p token), w.clock⟩ else g)
    some (begins { w with guard := guard } p s token, [])
  | .reading =>
    match w.guard with
    | none => some (w.goto p (.entering s token .drafting), [])
    | some g => some (w.goto p (.entering s token (.dating g.record)), [])
  | .dating raw =>
    match w.guard with
    | none => some (w.goto p (.entering s token .drafting), [])
    | some g =>
      match raw with
      | none => some (w.goto p (.entering s token .waiting), [])
      | some holder =>
        if p = h.breaker ∧ 0 < holder.pid then
          if holder.pid = h.pid p then
            if active w p holder.token then some (w.goto p (.entering s token .waiting), [])
            else some (w.goto p (.entering s token (.rereading holder)), [])
          else some (w.goto p (.entering s token (.probing holder (w.clock - g.mtimeMs))), [])
        else some (w.goto p (.entering s token .waiting), [])
  | .probing _ _ | .starting _ => none
  | .rereading observed =>
    if w.guard.bind GuardFile.record = some observed then some (w.goto p (.entering s token (.breaking observed)), [])
    else some (w.goto p (.entering s token .waiting), [])
  | .breaking _ =>
    match w.guard with
    | none => some (w.goto p (.entering s token .waiting), [])
    | some _ => some ({ w with guard := none }.goto p (.entering s token .drafting), [])
  | .waiting => some (w.goto p (.entering s token .drafting), [])

/-- `takeLockInsideGuard` and the other sections, and `releaseLockGuard` after them. -/
def work (w : World) (p : Nat) (s : Section) (token : Nat) : Work → Option (World × List Obs)
  | .stating =>
    match w.lock with
    | none => some (w.goto p (.inside s token .drafting), [])
    | some f =>
      if s = .takeFree then some (finishes w p s token none, [])
      else some (w.goto p (.inside s token (.reading (some f.mtimeMs))), [])
  | .reading mtimeMs =>
    match w.lock with
    | none => if s = .take then some (w.goto p (.inside s token .drafting), []) else some (finishes w p s token none, [])
    | some f =>
      if f.text = h.owner p then
        if s = .release then some (w.goto p (.inside s token .removing), []) else some (w.goto p (.inside s token .timing), [])
      else
        match s, mtimeMs with
        | .take, some m => some (w.goto p (.inside s token (.judging m)), [])
        | _, _ => some (finishes w p s token none, [])
  | .judging mtimeMs =>
    if w.clock - mtimeMs < LOCK_STALE_MS then some (finishes w p s token none, [])
    else some (w.goto p (.inside s token (.copying mtimeMs w.clock)), [])
  | .copying mtimeMs now =>
    let tmp : LockFile := ⟨w.inodes, h.owner p, w.clock⟩
    some ({ w with inodes := w.inodes + 1 }.goto p (.inside s token (.replacing mtimeMs now tmp 0)), [])
  | .replacing _ now tmp _ =>
    some ({ w with lock := some tmp }.goto p (.inside s token .timing), [.replaced (h.owner p) w.lock now])
  | .drafting =>
    let tmp : LockFile := ⟨w.inodes, h.owner p, w.clock⟩
    some ({ w with inodes := w.inodes + 1 }.goto p (.inside s token (.linking tmp)), [])
  | .linking tmp =>
    match w.lock with
    | none => some ({ w with lock := some tmp }.goto p (.inside s token .timing), [])
    | some _ => some (finishes w p s token none, [])
  | .opening =>
    match w.lock with
    | none =>
      some ({ w with lock := some ⟨w.inodes, "", w.clock⟩, inodes := w.inodes + 1 }.goto p (.inside s token (.writing w.inodes)), [])
    | some _ => some (finishes w p s token none, [])
  | .writing inode =>
    let lock := w.lock.map (fun f => if f.inode = inode then ⟨inode, h.owner p, w.clock⟩ else f)
    some ({ w with lock := lock }.goto p (.inside s token .timing), [])
  | .timing => some (w.goto p (.inside s token (.touching w.clock)), [])
  | .touching now =>
    match w.lock with
    | none => some (finishes w p s token none, [])
    | some f => some (finishes { w with lock := some { f with mtimeMs := now } } p s token (some now), [])
  | .removing => some (finishes { w with lock := none } p s token none, [.removed (h.owner p) w.lock])
  | .checking stamp attempt =>
    if w.guard.bind GuardFile.record = some (h.record p token) then some (w.goto p (.inside s token (.leaving stamp attempt)), [])
    else some (h.returns w p s stamp)
  | .leaving stamp _ => some (h.returns { w with guard := none } p s stamp)

def perform (w : World) (p : Nat) : Option (World × List Obs) :=
  match w.pc p with
  | .idle => none
  | .publishing free =>
    let tmp : LockFile := ⟨w.inodes, h.owner p, w.clock⟩
    some ({ w with inodes := w.inodes + 1 }.goto p (.linking free tmp), [])
  | .linking free tmp =>
    match w.lock with
    | none => some (withLockGuard { w with lock := some tmp } p .confirm, [])
    | some _ => if free then some (w.goto p .idle, [.refused (h.owner p)]) else some (withLockGuard w p .take, [])
  | .entering s token e => h.enter w p s token e
  | .inside s token k => h.work w p s token k

end Host

/-- The codes the callers tell apart: no hard links, a file that another process has open, and any other. -/
inductive Errno
  | unsupported
  | open
  | other
  deriving DecidableEq, Repr

namespace Host

variable (h : Host)

/-- The guard's attempts of `releaseLockGuard`. -/
def retries (w : World) (p : Nat) (s : Section) (token : Nat) (stamp : Option Nat) (attempt : Nat) : World × List Obs :=
  if attempt + 1 < 3 then (w.goto p (.inside s token (.checking stamp (attempt + 1))), []) else h.returns w p s stamp

/-- The next primitive of a process throws, other than as `perform` says; it has not changed a shared file. -/
def throws (w : World) (p : Nat) (code : Errno) : Option (World × List Obs) :=
  match w.pc p with
  | .idle => none
  | .publishing free | .linking free _ =>
    if code = .unsupported then some (withLockGuard w p (if free then .takeFree else .take), [])
    else some (w.goto p .idle, [.refused (h.owner p)])
  | .entering s token .drafting | .entering s token (.linking _) =>
    if code = .unsupported then some (w.goto p (.entering s token .opening), []) else some (h.returns w p s none)
  | .entering s _ .opening | .entering s _ (.writing _) => some (h.returns w p s none)
  | .entering s token .reading | .entering s token (.dating _) | .entering s token (.rereading _)
  | .entering s token (.breaking _) => some (w.goto p (.entering s token .waiting), [])
  | .entering _ _ (.probing _ _) | .entering _ _ (.starting _) | .entering _ _ .waiting => none
  | .inside s token .drafting | .inside s token (.linking _) =>
    if code = .unsupported then some (w.goto p (.inside s token .opening), []) else some (finishes w p s token none, [])
  | .inside s token (.replacing mtimeMs now tmp attempt) =>
    if code = .open ∧ attempt < 4 then some (w.goto p (.inside s token (.replacing mtimeMs now tmp (attempt + 1))), [])
    else some (finishes w p s token none, [])
  | .inside s token (.checking stamp attempt) | .inside s token (.leaving stamp attempt) =>
    some (h.retries w p s token stamp attempt)
  | .inside s token _ => some (finishes w p s token none, [])

/-- What `process.kill(pid, 0)` finds. -/
inductive Probe
  | absent
  | present
  | unknown
  deriving DecidableEq, Repr

/-- A probe finds a live process present; the pid of a dead one may be taken by any other. -/
def probes (w : World) (p : Nat) (found : Probe) : Option (World × List Obs) :=
  match w.pc p with
  | .entering s token (.probing holder ageMs) =>
    match found with
    | .absent =>
      if w.live.any (fun q => h.pid q == holder.pid) then none
      else some (w.goto p (.entering s token (.rereading holder)), [])
    | .present =>
      if ageMs < LOCK_GUARD_ABANDONED_MS ∨ holder.start = none then some (w.goto p (.entering s token .waiting), [])
      else some (w.goto p (.entering s token (.starting holder)), [])
    | .unknown => some (w.goto p (.entering s token .waiting), [])
  | _ => none

/-- `processStartTime` of a live process is its own, when it can be read. -/
def starts (w : World) (p : Nat) (start : Option String) : Option (World × List Obs) :=
  match w.pc p with
  | .entering s token (.starting holder) =>
    if w.live.any (fun q => h.pid q == holder.pid && (start != none && start != h.start q)) then none
    else if start ≠ none ∧ start ≠ holder.start then some (w.goto p (.entering s token (.rereading holder)), [])
    else some (w.goto p (.entering s token .waiting), [])
  | _ => none

def givesUp (w : World) (p : Nat) : Option (World × List Obs) :=
  match w.pc p with
  | .entering s _ .waiting => some (h.returns w p s none)
  | _ => none

end Host

inductive Event
  | spawn (p : Nat)
  | die (p : Nat)
  | acquireLock (p : Nat)
  | acquireFreeLock (p : Nat)
  | refreshLock (p : Nat)
  | releaseLock (p : Nat)
  | perform (p : Nat)
  | throws (p : Nat) (code : Errno)
  | probes (p : Nat) (found : Host.Probe)
  | starts (p : Nat) (start : Option String)
  | givesUp (p : Nat)
  | tick (ms : Nat)
  deriving DecidableEq, Repr

namespace Host

variable (h : Host)

def calls (w : World) (p : Nat) (u : World) : Option (World × List Obs) :=
  if p ∈ w.live ∧ w.pc p = .idle then some (u, []) else none

def step (w : World) : Event → Option (World × List Obs)
  | .spawn p =>
    if p ∉ w.live ∧ p ∉ w.dead ∧ ∀ q ∈ w.live, h.pid q ≠ h.pid p then some ({ w with live := p :: w.live }, []) else none
  | .die p => if p ∈ w.live then some ({ w with live := w.live.filter (· ≠ p), dead := p :: w.dead }, []) else none
  | .acquireLock p => calls w p (w.goto p (.publishing false))
  | .acquireFreeLock p => calls w p (w.goto p (.publishing true))
  | .refreshLock p => calls w p (withLockGuard w p .refresh)
  | .releaseLock p => calls w p (withLockGuard w p .release)
  | .perform p => if p ∈ w.live then h.perform w p else none
  | .throws p code => if p ∈ w.live then h.throws w p code else none
  | .probes p found => if p ∈ w.live then h.probes w p found else none
  | .starts p start => if p ∈ w.live then h.starts w p start else none
  | .givesUp p => if p ∈ w.live then h.givesUp w p else none
  | .tick ms => some ({ w with clock := w.clock + ms }, [])

end Host

structure Begun (w : World) : Prop where
  live : w.live = []
  idle : ∀ p, w.pc p = .idle
  guard : ∀ g r, w.guard = some g → g.record = some r → r.token < w.tokens

end Writer
end Wollipog

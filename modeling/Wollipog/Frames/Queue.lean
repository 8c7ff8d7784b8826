import Wollipog.Lib.Js
import Wollipog.Lib.Handoff
/-!
# Queue — the runner frame queue, one continuation at a time

Between two awaits the queue runs alone, so an event is one call or one resumed continuation of `drain`. What the
callbacks answer is configuration; when their promises settle, and how, is the event.
-/
namespace Wollipog
namespace Frames

structure Frame (T : Type*) where
  message : T
  bytes : Nat
  runnerWide : Bool
  batchable : Bool
deriving DecidableEq, Repr

structure QueuedFrame (T P : Type*) extends Frame T where
  prepared : Option P
deriving DecidableEq, Repr

/-- `none` of a classifier is a throw; `none` of `prepare` is a throw or no value. -/
structure RunnerFramePreparation (T P : Type*) where
  runnerWide : T → Option Bool
  prepare : Nat → T → Option P

structure RunnerFrameRuns (T : Type*) where
  batchable : T → Option Bool
  limit : Nat

structure Config (T P : Type*) where
  preparation : Option (RunnerFramePreparation T P)
  runs : Option (RunnerFrameRuns T)

structure Limits where
  frames : Nat
  bytes : Nat
  positive : 0 < bytes
deriving DecidableEq

/-- Where `drain` awaits, if it runs. -/
inductive Phase (T P : Type*)
  | idle
  | afterDrain
  | handling (run : List (QueuedFrame T P))
  | yielding
deriving DecidableEq

structure Queue (T P : Type*) where
  limits : Limits
  pending : List (QueuedFrame T P)
  bytes : Nat
  closed : Bool
  pressured : Bool
  inventoryFrameReserve : Nat
  preparedCount : Nat
  handlingRunnerWide : Bool
  phase : Phase T P
  /-- How often `prepare` was called. -/
  prepares : Nat

inductive Obs (T P : Type*)
  | accepts (frame : QueuedFrame T P)
  | prepares (frame : QueuedFrame T P)
  | handles (frame : QueuedFrame T P)
  | handlesRun (run : List (QueuedFrame T P))
  | settles (run : List (QueuedFrame T P))
  | closes
  | discards (frame : QueuedFrame T P) (value : P)
  | pressure (paused : Bool)
  | drains
  | fails

inductive Event (T : Type*)
  | enqueue (message : T) (bytes : Nat)
  | reserveInventory (snapshotCount : Int)
  | close
  | handlerSettles (ok : Bool)
  | afterDrainSettles (ok : Bool)
  | immediate

variable {T P : Type*}

def start (l : Limits) : Queue T P := ⟨l, [], 0, false, false, 0, 0, false, .idle, 0⟩

def reserveInventory (q : Queue T P) (snapshotCount : Int) : Queue T P :=
  if !Js.isSafeInteger snapshotCount || snapshotCount < 0 then q
  else
    { q with
      inventoryFrameReserve := max q.inventoryFrameReserve snapshotCount.toNat
      limits := { q.limits with frames := max q.limits.frames (snapshotCount.toNat + 4096) } }

def highFrames (q : Queue T P) : Nat :=
  q.inventoryFrameReserve + max 1 (min 1024 ((q.limits.frames - q.inventoryFrameReserve) / 2))

/-- Both halves and the quarter of the byte ceiling are exact quotients in the source. -/
def paused (q : Queue T P) : Bool :=
  !q.closed &&
    if q.pressured then decide (highFrames q < 2 * q.pending.length) || decide (q.limits.bytes < 8 * q.bytes)
    else decide (highFrames q ≤ q.pending.length) || decide (q.limits.bytes ≤ 4 * q.bytes)

def updatePressure (q : Queue T P) : Queue T P × List (Obs T P) :=
  if paused q = q.pressured then (q, []) else ({ q with pressured := paused q }, [.pressure (paused q)])

def blocked (q : Queue T P) : Bool :=
  decide (0 < q.preparedCount) && (q.pending[q.preparedCount - 1]?.map (fun f => f.runnerWide)).getD false

/-- One turn of the loop of `prepareAhead`. -/
def prepareNext (p : RunnerFramePreparation T P) (q : Queue T P) : Option (QueuedFrame T P × Queue T P) :=
  if blocked q then none
  else
    (q.pending[q.preparedCount]?).map (fun frame =>
      let done : QueuedFrame T P := { frame with prepared := p.prepare q.prepares frame.message }
      (done, { q with
        pending := q.pending.set q.preparedCount done
        preparedCount := q.preparedCount + 1
        prepares := q.prepares + 1 }))

def prepareLoop (p : RunnerFramePreparation T P) : Nat → Queue T P → Queue T P × List (Obs T P)
  | 0, q => (q, [])
  | n + 1, q =>
    match prepareNext p q with
    | none => (q, [])
    | some (frame, q') =>
      let (r, o) := prepareLoop p n q'
      (r, .prepares frame :: o)

def prepareAhead (cfg : Config T P) (q : Queue T P) : Queue T P × List (Obs T P) :=
  match cfg.preparation with
  | none => (q, [])
  | some p => if q.handlingRunnerWide then (q, []) else prepareLoop p (q.pending.length - q.preparedCount) q

def discard (frame : QueuedFrame T P) : Option (Obs T P) := frame.prepared.map (fun v => .discards frame v)

def close (q : Queue T P) : Queue T P × List (Obs T P) :=
  let dropped := q.pending.take q.preparedCount
  let (q', o) := updatePressure { q with closed := true, pending := [], preparedCount := 0, bytes := 0 }
  (q', (if q.closed then [] else [.closes]) ++ o ++ dropped.filterMap discard)

/-- `shift` of a queue that is not empty. -/
def takeNext (next : QueuedFrame T P) (rest : List (QueuedFrame T P)) (q : Queue T P) : Queue T P :=
  { q with pending := rest, preparedCount := q.preparedCount - 1, bytes := q.bytes - next.bytes }

def joinsRun (frame : QueuedFrame T P) : Bool := frame.batchable && frame.prepared.isNone

/-- The frames that join the first one, at most `n`. -/
def joinRun (cfg : Config T P) (first : QueuedFrame T P) : Nat → Queue T P → List (QueuedFrame T P) × Queue T P
  | 0, q => ([], q)
  | n + 1, q =>
    match q.pending with
    | [] => ([], q)
    | next :: rest =>
      if joinsRun first && joinsRun next && (cfg.preparation.isNone || decide (0 < q.preparedCount)) then
        let (more, q') := joinRun cfg first n (takeNext next rest q)
        (next :: more, q')
      else ([], q)

def takeRun (cfg : Config T P) (first : QueuedFrame T P) (rest : List (QueuedFrame T P)) (q : Queue T P) :
    List (QueuedFrame T P) × Queue T P :=
  let q' := takeNext first rest q
  match cfg.runs with
  | none => ([first], q')
  | some r =>
    let (more, q'') := joinRun cfg first (r.limit - 1) q'
    (first :: more, q'')

def handing : List (QueuedFrame T P) → Obs T P
  | [frame] => .handles frame
  | run => .handlesRun run

/-- From the head of the loop of `drain` to its next await. -/
def drain (cfg : Config T P) (q : Queue T P) : Queue T P × List (Obs T P) :=
  if q.closed then ({ q with phase := .idle }, [])
  else if q.pending.isEmpty then ({ q with phase := .afterDrain }, [.drains])
  else
    let (q₁, o₁) := prepareAhead cfg q
    match q₁.pending with
    | [] => (q₁, o₁)
    | first :: rest =>
      let (run, q₂) := takeRun cfg first rest q₁
      let (q₃, o₂) := updatePressure q₂
      let (q₄, o₃) := prepareAhead cfg { q₃ with handlingRunnerWide := run.any (fun f => f.runnerWide) }
      ({ q₄ with phase := .handling run }, o₁ ++ o₂ ++ o₃ ++ [handing run])

/-- The `catch` and the `finally` of `drain`. -/
def fail (q : Queue T P) : Queue T P × List (Obs T P) :=
  let (q', o) := close { q with handlingRunnerWide := false }
  ({ q' with phase := .idle }, o ++ [.fails])

def enqueue (cfg : Config T P) (q : Queue T P) (message : T) (bytes : Nat) : Queue T P × List (Obs T P) :=
  if q.closed then (q, [])
  else if q.limits.frames ≤ q.pending.length ∨ q.limits.bytes < q.bytes + bytes then
    let (q', o) := close q
    (q', o ++ [.fails])
  else
    let frame : QueuedFrame T P :=
      { message, bytes, prepared := none
        runnerWide := match cfg.preparation with
          | none => true
          | some p => (p.runnerWide message).getD true
        batchable := match cfg.runs with
          | none => false
          | some r => (r.batchable message).getD false }
    let (q₁, o₁) := updatePressure { q with pending := q.pending ++ [frame], bytes := q.bytes + bytes }
    let (q₂, o₂) := prepareAhead cfg q₁
    match q.phase with
    | .idle =>
      let (q₃, o₃) := drain cfg q₂
      (q₃, .accepts frame :: (o₁ ++ o₂ ++ o₃))
    | _ => (q₂, .accepts frame :: (o₁ ++ o₂))

def step (cfg : Config T P) (q : Queue T P) : Event T → Option (Queue T P × List (Obs T P))
  | .enqueue message bytes => some (enqueue cfg q message bytes)
  | .reserveInventory n => some (reserveInventory q n, [])
  | .close => some (close q)
  | .handlerSettles ok =>
    match q.phase with
    | .handling run =>
      if ok then
        let (q', o) := prepareAhead cfg { q with handlingRunnerWide := false, phase := .yielding }
        some (q', .settles run :: o)
      else
        let (q', o) := fail q
        some (q', .settles run :: o)
    | _ => none
  | .afterDrainSettles ok =>
    match q.phase with
    | .afterDrain =>
      if ok then
        match q.pending with
        | [] => some ({ q with phase := .idle }, [])
        | _ => some (drain cfg q)
      else some (fail q)
    | _ => none
  | .immediate =>
    match q.phase with
    | .yielding => some (drain cfg q)
    | _ => none

end Frames
end Wollipog

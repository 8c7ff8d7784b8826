import Wollipog.Media.Fences
/-!
# Stops — one Stop request against the fences and the worker registry

`request` reads, commits a permanent intent, rechecks and signals, then records the outcome; a crash or another caller
may stand between any two of them.
-/
namespace Wollipog
namespace Media

structure StopIdentity extends FenceIdentity where
  childSessionId : String
deriving DecidableEq, Repr

structure StopRequest extends StopIdentity where
  operationId : String
deriving DecidableEq, Repr

structure Acknowledgement where
  request : StopRequest
  outcome : StopOutcome
  stopFenceSha256 : String
deriving DecidableEq, Repr

/-- `mediaActiveStopIdentityBody`, which throws on an identity that is not exact. -/
def stopIdentityBody (v : StopIdentity) : Option StopIdentity :=
  if validMediaDispatchFenceIdentity v.toFenceIdentity && id_ v.childSessionId &&
      decide (v.childSessionId ≠ v.sessionId) && decide (v.childSessionId ≠ v.rootSessionId) then some v else none

/-- `mediaActiveStopRequestBody`. -/
def stopRequestBody (v : StopRequest) : Option StopRequest :=
  if id_ v.operationId && (stopIdentityBody v.toStopIdentity).isSome then some v else none

def stopMembers (v : StopRequest) : List (String × String) :=
  [("rootSessionId", v.rootSessionId), ("childSessionId", v.childSessionId), ("sessionId", v.sessionId),
    ("runnerId", v.runnerId), ("generation", v.generation), ("commandSha256", v.commandSha256),
    ("dispatchSha256", v.dispatchSha256), ("operationId", v.operationId)]

def json (v : StopRequest) : String := Js.quoteObject (stopMembers v)

def StopOutcome.text : StopOutcome → String
  | .unknown => "unknown"
  | .stopRequested => "stop_requested"

def receipt (sha256 : String → String) (v : StopRequest) (outcome : StopOutcome) : Acknowledgement :=
  ⟨v, outcome, sha256 (Js.quoteObject (stopMembers v ++ [("outcome", outcome.text)]))⟩

/-- The recorded Stop of this exact request; an error where another identity or operation holds the row. -/
def prior (sha256 : String → String) (db : Db) (v : StopRequest) : Except String (Option Acknowledgement) :=
  match db.stops v.key with
  | none => .ok none
  | some row =>
    if row.request ≠ json v || row.sha256 ≠ sha256 (json v) then .error "Dedicated Stop identity cannot be replaced."
    else if stopOperation db v.toFenceIdentity ≠ some v.operationId then
      .error "Dedicated Stop command fence is unavailable."
    else .ok (some (receipt sha256 v row.outcome))

/-- A registered worker as one read of the registry shows it: the handle and the coordinates it holds now. -/
structure Handle where
  ref : Nat
  identity : StopIdentity
deriving DecidableEq, Repr

/-- What the ports answer at one step: the current handle and the current authority. -/
structure Ports where
  current : Option Handle
  authority : Bool
deriving DecidableEq, Repr

/-- Where a call of `request` is: its reads passed, its intent committed, or its signal sent. -/
inductive Call
  | checked (request : StopRequest) (handle : Nat)
  | committed (request : StopRequest) (handle : Nat)
  | signalled (request : StopRequest)
deriving DecidableEq, Repr

/-- The reads of `request`: an answer, or the call that goes on to commit. -/
def checks (sha256 : String → String) (db : Db) (isTransaction : Bool) (ports : Ports) (input : StopRequest) :
    Option Acknowledgement ⊕ Call :=
  if isTransaction then .inl none
  else
    match stopRequestBody input with
    | none => .inl none
    | some v =>
      if !claimed db v.toFenceIdentity || !ports.authority then .inl none
      else
        match ports.current with
        | none => .inl none
        | some handle =>
          if stopIdentityBody handle.identity ≠ some v.toStopIdentity then .inl none
          else
            match prior sha256 db v with
            | .error _ => .inl none
            | .ok (some ack) => .inl (some ack)
            | .ok none =>
              if stopOperation db v.toFenceIdentity ≠ none then .inl none else .inr (.checked v handle.ref)

/-- The commit of the intent: the Stop claim on the fence and the row of unknown outcome, both or neither. -/
def commit (sha256 : String → String) (db : Db) (v : StopRequest) : Option Db :=
  match claimStop db v.toFenceIdentity v.operationId with
  | (true, db') =>
    match db'.stops v.key with
    | none => some (db'.setStop v.key ⟨json v, sha256 (json v), .unknown⟩)
    | some _ => none
  | (false, _) => none

/-- The recheck at the irreversible boundary: whether the owned handle is signalled. -/
def signals (db : Db) (ports : Ports) (v : StopRequest) (handle : Nat) : Bool :=
  (ports.current.map Handle.ref == some handle) && ports.authority &&
    (stopOperation db v.toFenceIdentity == some v.operationId) &&
    ((ports.current.bind (fun h => stopIdentityBody h.identity)) == some v.toStopIdentity)

def record (sha256 : String → String) (db : Db) (v : StopRequest) : Db :=
  match db.stops v.key with
  | some row =>
    if row.request = json v ∧ row.sha256 = sha256 (json v) then db.setStop v.key { row with outcome := .stopRequested }
    else db
  | none => db

def readback (sha256 : String → String) (db : Db) (input : StopRequest) : Option Acknowledgement :=
  match stopRequestBody input with
  | none => none
  | some v => (prior sha256 db v).toOption.join

/-- One database and, for each process, its call of `request` in flight. -/
structure World where
  db : Db
  calls : Nat → Option Call

def World.setCall (w : World) (p : Nat) (c : Option Call) : World := { w with calls := Function.update w.calls p c }

@[simp] theorem World.setCall_db (w : World) (p : Nat) (c : Option Call) : (w.setCall p c).db = w.db := rfl

theorem World.setCall_calls (w : World) (p q : Nat) (c : Option Call) :
    (w.setCall p c).calls q = if q = p then c else w.calls q := by
  simp only [World.setCall, Function.update_apply]

/-- What can happen: a call, a replay or a step of one, a primitive that throws, and a crash. -/
inductive Event
  | claim (p : Nat) (v : FenceIdentity)
  | claimCrash (p : Nat) (v : FenceIdentity)
  | markNeverDispatched (p : Nat) (v : FenceIdentity)
  | markCrash (p : Nat) (v : FenceIdentity)
  | stop (p : Nat) (isTransaction : Bool) (ports : Ports) (v : StopRequest)
  | stopCommit (p : Nat)
  | stopSignal (p : Nat) (ports : Ports) (throws : Bool)
  | stopRecord (p : Nat)
  | stopThrows (p : Nat)
  | readback (p : Nat) (v : StopRequest)
  | crash (p : Nat)
deriving DecidableEq, Repr

inductive Obs
  | claimAnswered (v : FenceIdentity) (answer : Bool)
  | neverDispatched (v : FenceIdentity) (receipt : NeverDispatchedFence)
  | signalled (v : StopRequest)
  | acknowledged (v : StopRequest) (ack : Option Acknowledgement)
deriving DecidableEq, Repr

def step (sha256 : String → String) (w : World) : Event → Option (World × List Obs)
  | .claim _ v => some ({ w with db := (claim w.db v).2 }, [.claimAnswered v (claim w.db v).1])
  | .claimCrash p v => some ({ w with db := (claim w.db v).2 }.setCall p none, [])
  | .markNeverDispatched _ v =>
    some ({ w with db := (cancelBeforeLaunch sha256 w.db v).2 },
      match (cancelBeforeLaunch sha256 w.db v).1 with
      | some receipt => [.neverDispatched v receipt]
      | none => [])
  | .markCrash p v => some ({ w with db := (cancelBeforeLaunch sha256 w.db v).2 }.setCall p none, [])
  | .stop p isTransaction ports v =>
    match w.calls p with
    | some _ => none
    | none =>
      match checks sha256 w.db isTransaction ports v with
      | .inl answer => some (w, [.acknowledged v answer])
      | .inr call => some (w.setCall p (some call), [])
  | .stopCommit p =>
    match w.calls p with
    | some (.checked v handle) =>
      match commit sha256 w.db v with
      | some db => some ({ w with db := db }.setCall p (some (.committed v handle)), [])
      | none => some (w.setCall p none, [.acknowledged v none])
    | _ => none
  | .stopSignal p ports throws =>
    match w.calls p with
    | some (.committed v handle) =>
      if signals w.db ports v handle then
        if throws then some (w.setCall p none, [.signalled v, .acknowledged v (some (receipt sha256 v .unknown))])
        else some (w.setCall p (some (.signalled v)), [.signalled v])
      else some (w.setCall p none, [.acknowledged v (some (receipt sha256 v .unknown))])
    | _ => none
  | .stopRecord p =>
    match w.calls p with
    | some (.signalled v) =>
      some ({ w with db := record sha256 w.db v }.setCall p none, [.acknowledged v (some (receipt sha256 v .stopRequested))])
    | _ => none
  | .stopThrows p =>
    match w.calls p with
    | some (.checked v _) => some (w.setCall p none, [.acknowledged v none])
    | some (.committed v _) => some (w.setCall p none, [.acknowledged v none])
    | some (.signalled v) => some (w.setCall p none, [.acknowledged v none])
    | none => none
  | .readback _ v => some (w, [.acknowledged v (readback sha256 w.db v)])
  | .crash p => some (w.setCall p none, [])

end Media
end Wollipog

import Mathlib
import Wollipog.Lib.Js
/-!
# Attempt — one row of the steering attempts and the operations on it

A steering attempt has two settlement axes: its delivery (`disposition`) and its recovery (`resolutionAction`, with
`resolvedAt` once applied).
-/
namespace Wollipog.Steering

inductive Disposition
  | pending | accepted | convertedToQueue | rejected | uncertain
  deriving DecidableEq, Repr

inductive Action
  | queueAgain | dismiss
  deriving DecidableEq, Repr

inductive Reason
  | accepted | staleTurn | unsupportedProtocol | unsupportedDriver | noActiveProviderTurn | policyBlocked
  | governanceBlocked | queueItemAbsent | queueItemStarted | configurationMismatch | queueCapacityExceeded
  | providerRejected | transportUncertain | historyIntegrityFailure
  deriving DecidableEq, Repr

/-- `SteerSessionResultMessage` -/
structure SteerResult where
  requestId : String
  submissionId : String
  sessionId : String
  turnId : String
  disposition : Disposition
  reason : Reason
  queuedPromptId : Option String
  providerTurnId : Option String
  message : Option String
  deriving DecidableEq, Repr

/-- `ResolveSteeringAttemptResultMessage` -/
structure ResolutionResult where
  requestId : String
  sessionId : String
  submissionId : String
  action : Action
  applied : Bool
  reason : Option String
  queuedPromptId : Option String
  deriving DecidableEq, Repr

structure AttemptRow where
  requestId : String
  sessionId : String
  submissionId : String
  turnId : String
  requestSha256 : String
  disposition : Disposition
  reason : Option Reason
  queuedPromptId : Option String
  receipt : Option SteerResult
  resolutionAction : Option Action
  resolutionRequestId : Option String
  resolutionReceipt : Option ResolutionResult
  resolutionQueuedPromptId : Option String
  resolutionRequestedAt : Option Int
  createdAt : Int
  updatedAt : Int
  terminalAt : Option Int
  resolvedAt : Option Int
  queueRevisionAtCreate : Nat
  queueAbsentAt : Option Int
  receiptDismissedAt : Option Int
  compactedAt : Option Int
  deriving DecidableEq, Repr

structure UserMessage where
  turnId : Option String
  submissionId : Option String
  deliveryIntent : Option String
  deriving DecidableEq, Repr

structure QueueSnapshot where
  revision : Nat
  promptIds : List String
  deriving DecidableEq, Repr

/-- The row with what its operations read beside it: the session's runner, queue snapshot and user messages. -/
structure World where
  row : AttemptRow
  runnerId : String
  snapshot : Option QueueSnapshot
  messages : List UserMessage
  deriving DecidableEq, Repr

structure ResolutionView where
  action : Action
  applied : Bool
  queuedPromptId : Option String
  deriving DecidableEq, Repr

structure AttemptView where
  submissionId : String
  turnId : String
  state : Disposition
  reason : Option Reason
  queuedPromptId : Option String
  resolution : Option ResolutionView
  createdAt : Int
  updatedAt : Int
  deriving DecidableEq, Repr

def AttemptRow.view (row : AttemptRow) : AttemptView where
  submissionId := row.submissionId
  turnId := row.turnId
  state := row.disposition
  reason := row.reason
  queuedPromptId := row.queuedPromptId
  resolution := row.resolutionAction.map (fun action =>
    { action := action, applied := row.resolvedAt.isSome,
      queuedPromptId := (row.resolutionReceipt.bind ResolutionResult.queuedPromptId).or row.resolutionQueuedPromptId })
  createdAt := row.createdAt
  updatedAt := row.updatedAt

def bounded (max : Nat) (s : String) : Bool := decide (0 < Js.utf16Length s) && decide (Js.utf16Length s ≤ max)

def boundedOrAbsent (max : Nat) (s : Option String) : Bool := s.all (bounded max)

def validSteeringResult (r : SteerResult) : Bool :=
  bounded 512 r.requestId && bounded 512 r.sessionId && bounded 512 r.submissionId && bounded 512 r.turnId &&
    r.message.all (fun m => decide (Js.utf16Length m ≤ 4096)) && boundedOrAbsent 512 r.providerTurnId &&
    boundedOrAbsent 512 r.queuedPromptId &&
    match r.disposition with
    | .pending => false
    | .accepted => r.reason == .accepted && r.queuedPromptId.isNone
    | .convertedToQueue =>
      [Reason.staleTurn, .noActiveProviderTurn, .providerRejected].contains r.reason && r.queuedPromptId.isSome &&
        r.providerTurnId.isNone
    | .uncertain =>
      [Reason.transportUncertain, .historyIntegrityFailure].contains r.reason && r.queuedPromptId.isNone &&
        r.providerTurnId.isNone
    | .rejected =>
      r.reason != .accepted && r.reason != .transportUncertain && r.queuedPromptId.isNone && r.providerTurnId.isNone

def validSteeringResolutionResult (r : ResolutionResult) : Bool :=
  bounded 512 r.requestId && bounded 512 r.sessionId && bounded 512 r.submissionId && boundedOrAbsent 1024 r.reason &&
    boundedOrAbsent 512 r.queuedPromptId &&
    if r.applied then
      r.reason.isNone && (if r.action = .queueAgain then r.queuedPromptId.isSome else r.queuedPromptId.isNone)
    else r.reason.isSome && r.queuedPromptId.isNone

structure CreateInput where
  requestId : String
  sessionId : String
  submissionId : String
  turnId : String
  requestSha256 : String
  now : Int
  deriving DecidableEq, Repr

/-- The row that `createSteeringAttempt` inserts. -/
def createdRow (input : CreateInput) (snapshot : Option QueueSnapshot) : AttemptRow where
  requestId := input.requestId
  sessionId := input.sessionId
  submissionId := input.submissionId
  turnId := input.turnId
  requestSha256 := input.requestSha256
  disposition := .pending
  reason := none
  queuedPromptId := none
  receipt := none
  resolutionAction := none
  resolutionRequestId := none
  resolutionReceipt := none
  resolutionQueuedPromptId := none
  resolutionRequestedAt := none
  createdAt := input.now
  updatedAt := input.now
  terminalAt := none
  resolvedAt := none
  queueRevisionAtCreate := (snapshot.map QueueSnapshot.revision).getD 0
  queueAbsentAt := none
  receiptDismissedAt := none
  compactedAt := none

def correlated (w : World) (runnerId : String) (r : SteerResult) : Bool :=
  w.row.requestId == r.requestId && w.row.sessionId == r.sessionId && w.row.submissionId == r.submissionId &&
    w.row.turnId == r.turnId && w.runnerId == runnerId

def mayReconcileEvidence (row : AttemptRow) (r : SteerResult) : Bool :=
  row.compactedAt.isNone && row.receipt.isNone &&
    (row.disposition == .uncertain || (row.disposition == .accepted && r.disposition == .accepted))

def takesResult (w : World) (runnerId : String) (r : SteerResult) : Bool :=
  validSteeringResult r && correlated w runnerId r && (w.row.disposition == .pending || mayReconcileEvidence w.row r)

def queueAbsentOf (w : World) (r : SteerResult) (now : Int) : Option Int :=
  if r.disposition = .convertedToQueue then
    w.snapshot.bind (fun s =>
      if w.row.queueRevisionAtCreate < s.revision ∧ ¬s.promptIds.contains (r.queuedPromptId.getD "") then some now else none)
  else none

def recordSteeringResult (runnerId : String) (r : SteerResult) (now : Int) (w : World) : Option AttemptView × World :=
  if validSteeringResult r && correlated w runnerId r then
    if takesResult w runnerId r then
      let row := { w.row with
        disposition := r.disposition, reason := some r.reason, queuedPromptId := r.queuedPromptId, receipt := some r,
        queueAbsentAt := queueAbsentOf w r now, updatedAt := now, terminalAt := some now }
      (some row.view, { w with row := row })
    else (some w.row.view, w)
  else (none, w)

def settlePending (disposition : Disposition) (reason : Reason) (now : Int) (row : AttemptRow) : AttemptRow :=
  if row.disposition = .pending then
    { row with disposition := disposition, reason := some reason, updatedAt := now, terminalAt := some now }
  else row

def markSteeringAttemptUncertain (requestId : String) (now : Int) (w : World) : World :=
  if w.row.requestId = requestId then { w with row := settlePending .uncertain .transportUncertain now w.row } else w

def markSteeringAttemptNotSent (requestId : String) (now : Int) (w : World) : World :=
  if w.row.requestId = requestId then { w with row := settlePending .rejected .providerRejected now w.row } else w

def settleInterruptedSteeringAttempts (now : Int) (w : World) : World :=
  { w with row := settlePending .uncertain .transportUncertain now w.row }

def resolveSteeringAttemptFromUserMessage (sessionId submissionId turnId : String) (now : Int) (w : World) : World :=
  if w.row.sessionId = sessionId ∧ w.row.submissionId = submissionId ∧ w.row.turnId = turnId ∧
      w.row.compactedAt = none ∧ w.row.resolvedAt = none ∧ w.row.resolutionAction = none ∧
      (w.row.disposition = .pending ∨ w.row.disposition = .uncertain) then
    { w with row := { w.row with
        disposition := .accepted, reason := some .accepted, updatedAt := now, terminalAt := some now } }
  else w

def recordSteeringQueueSnapshot (sessionId : String) (promptIds : List String) (now : Int) (w : World) : World :=
  if w.row.sessionId = sessionId ∧ Js.isSafeInteger now ∧ 0 ≤ now ∧ promptIds.length ≤ 100 ∧ promptIds.Nodup ∧ ∀ id ∈ promptIds, Js.boundedId 256 id then
    let revision := ((w.snapshot.map QueueSnapshot.revision).getD 0) + 1
    let row := match w.row.queuedPromptId with
      | some id =>
        if w.row.disposition = .convertedToQueue ∧ w.row.queueRevisionAtCreate < revision ∧ w.row.compactedAt = none then
          { w.row with queueAbsentAt := if promptIds.contains id then none else some now, updatedAt := max w.row.updatedAt now }
        else w.row
      | none => w.row
    { w with row := row, snapshot := some ⟨revision, promptIds⟩ }
  else w

/-! ## The recovery axis -/

inductive StageResult
  | notFound
  | notUncertain (attempt : AttemptView)
  | conflict (attempt : AttemptView)
  | existing (requestId : Option String) (attempt : AttemptView)
  | staged (requestId : String) (attempt : AttemptView)
  deriving DecidableEq, Repr

def dismissReceipt (now : Int) (row : AttemptRow) : AttemptRow :=
  { row with
    receiptDismissedAt := row.receiptDismissedAt.or (some now), resolutionReceipt := none, resolutionQueuedPromptId := none,
    updatedAt := max row.updatedAt now }

def stageSteeringResolution (sessionId submissionId : String) (action : Action) (requestId : String) (now : Int) (w : World) :
    StageResult × World :=
  let row := w.row
  if row.sessionId = sessionId ∧ row.submissionId = submissionId then
    if action = .dismiss ∧ row.resolutionAction = some .queueAgain ∧ row.resolvedAt ≠ none then
      let row := dismissReceipt now row
      (.staged requestId row.view, { w with row := row })
    else match row.resolutionAction with
      | some previous =>
        if previous ≠ action then (.conflict row.view, w) else (.existing row.resolutionRequestId row.view, w)
      | none =>
        if action = .dismiss ∧ row.disposition = .rejected ∧ row.resolvedAt = none then
          -- a rejection is terminal: dismissing it is recorded here, without the runner
          let receipt : Option ResolutionResult :=
            if row.compactedAt = none then some ⟨requestId, sessionId, submissionId, action, true, none, none⟩ else none
          let row := { row with
            resolutionAction := some action, resolutionRequestId := some requestId, resolutionReceipt := receipt,
            resolutionRequestedAt := some now, resolvedAt := some now, updatedAt := now }
          (.staged requestId row.view, { w with row := row })
        else if row.disposition ≠ .uncertain ∨ row.resolvedAt ≠ none ∨ row.compactedAt ≠ none then (.notUncertain row.view, w)
        else
          let row := { row with
            resolutionAction := some action, resolutionRequestId := some requestId, resolutionRequestedAt := some now,
            updatedAt := now }
          (.staged requestId row.view, { w with row := row })
  else (.notFound, w)

def steeredEvidence (w : World) : Bool :=
  w.messages.any (fun m => m.deliveryIntent == some "steer" && m.submissionId == some w.row.submissionId &&
    m.turnId == some w.row.turnId)

def clearRejectedSteeringResolution (requestId : String) (w : World) : Bool × World :=
  if w.row.resolutionRequestId = some requestId ∧ w.row.resolvedAt = none ∧
      (w.row.resolutionReceipt.map ResolutionResult.applied) = some false then
    let row := { w.row with
      resolutionAction := none, resolutionRequestId := none, resolutionReceipt := none, resolutionRequestedAt := none,
      updatedAt := w.row.updatedAt + 1 }
    let w := { w with row := row }
    (true, if steeredEvidence w then
        resolveSteeringAttemptFromUserMessage row.sessionId row.submissionId row.turnId row.updatedAt w
      else w)
  else (false, w)

def correlatedResolution (w : World) (runnerId : String) (r : ResolutionResult) : Bool :=
  w.row.resolutionRequestId == some r.requestId && w.row.sessionId == r.sessionId && w.row.submissionId == r.submissionId &&
    w.row.resolutionAction == some r.action && w.runnerId == runnerId

def hasCanonicalQueuedPromptDelivery (w : World) (queuedPromptId : String) : Bool :=
  w.messages.any (fun m => m.turnId == some queuedPromptId && m.deliveryIntent.getD "" != "steer")

def takesResolution (w : World) (runnerId : String) (r : ResolutionResult) : Bool :=
  validSteeringResolutionResult r && correlatedResolution w runnerId r && w.row.resolvedAt.isNone

def recordSteeringResolutionResult (runnerId : String) (r : ResolutionResult) (now : Int) (w : World) : Option AttemptView × World :=
  if validSteeringResolutionResult r && correlatedResolution w runnerId r then
    if takesResolution w runnerId r then
      if r.applied then
        let row := { w.row with
          resolutionReceipt := some r, resolutionQueuedPromptId := r.queuedPromptId.or w.row.resolutionQueuedPromptId,
          resolvedAt := some now, updatedAt := now }
        let row := match r.queuedPromptId with
          | some id => if r.action = .queueAgain ∧ hasCanonicalQueuedPromptDelivery w id then dismissReceipt now row else row
          | none => row
        (some row.view, { w with row := row })
      else
        let row := { w.row with resolutionReceipt := some r, updatedAt := now }
        (some row.view, { w with row := row })
    else (some w.row.view, w)
  else (none, w)

def retireQueuedAgainSteeringReceiptFromUserMessage (sessionId queuedPromptId : String) (now : Int) (w : World) : World :=
  if w.row.sessionId = sessionId ∧ w.row.resolutionAction = some .queueAgain ∧ w.row.resolvedAt ≠ none ∧
      w.row.receiptDismissedAt = none ∧ w.row.resolutionQueuedPromptId = some queuedPromptId then
    { w with row := dismissReceipt now w.row }
  else w

def resolveUncertainSteeringAttempt (sessionId submissionId : String) (now : Int) (w : World) : World :=
  if w.row.sessionId = sessionId ∧ w.row.submissionId = submissionId ∧ w.row.disposition = .uncertain ∧ w.row.compactedAt = none then
    { w with row := { w.row with resolvedAt := w.row.resolvedAt.or (some now), updatedAt := now } }
  else w

def retentionMs : Int := 30 * 24 * 60 * 60000

/-- Old enough to compact: a settled delivery, or an uncertain one whose recovery was resolved. -/
def compactionDue (row : AttemptRow) (now : Int) : Bool :=
  match row.terminalAt with
  | none => false
  | some terminal =>
    if row.disposition = .uncertain then row.resolvedAt.any (fun t => decide (t ≤ now - retentionMs))
    else decide (row.disposition ≠ .pending) && decide (terminal ≤ now - retentionMs)

/-- `compactSteeringAttempts` on this row; `reached` is whether its batch lets it. -/
def compactSteeringAttempts (reached : Bool) (now : Int) (w : World) : World :=
  let row := w.row
  if reached && compactionDue row now && row.compactedAt.isNone then
    { w with row := { row with
        receipt := none, resolutionReceipt := none, resolutionRequestId := none, queuedPromptId := none,
        resolutionQueuedPromptId :=
          if row.resolutionAction = some .queueAgain ∧ row.receiptDismissedAt = none then row.resolutionQueuedPromptId else none,
        compactedAt := some now } }
  else w

inductive Op
  | result (runnerId : String) (r : SteerResult) (now : Int)
  | markUncertain (requestId : String) (now : Int)
  | markNotSent (requestId : String) (now : Int)
  | settleInterrupted (now : Int)
  | userMessage (m : UserMessage)
  | resolveFromUserMessage (sessionId submissionId turnId : String) (now : Int)
  | queueSnapshot (sessionId : String) (promptIds : List String) (now : Int)
  | stage (sessionId submissionId : String) (action : Action) (requestId : String) (now : Int)
  | clearRejected (requestId : String)
  | resolution (runnerId : String) (r : ResolutionResult) (now : Int)
  | retireQueuedAgain (sessionId queuedPromptId : String) (now : Int)
  | resolveUncertain (sessionId submissionId : String) (now : Int)
  | compact (reached : Bool) (now : Int)
  | assignRunner (runnerId : String)
  deriving DecidableEq, Repr

def step (w : World) : Op → World
  | .result runnerId r now => (recordSteeringResult runnerId r now w).2
  | .markUncertain requestId now => markSteeringAttemptUncertain requestId now w
  | .markNotSent requestId now => markSteeringAttemptNotSent requestId now w
  | .settleInterrupted now => settleInterruptedSteeringAttempts now w
  | .userMessage m => { w with messages := w.messages ++ [m] }
  | .resolveFromUserMessage sessionId submissionId turnId now =>
    resolveSteeringAttemptFromUserMessage sessionId submissionId turnId now w
  | .queueSnapshot sessionId promptIds now => recordSteeringQueueSnapshot sessionId promptIds now w
  | .stage sessionId submissionId action requestId now => (stageSteeringResolution sessionId submissionId action requestId now w).2
  | .clearRejected requestId => (clearRejectedSteeringResolution requestId w).2
  | .resolution runnerId r now => (recordSteeringResolutionResult runnerId r now w).2
  | .retireQueuedAgain sessionId queuedPromptId now => retireQueuedAgainSteeringReceiptFromUserMessage sessionId queuedPromptId now w
  | .resolveUncertain sessionId submissionId now => resolveUncertainSteeringAttempt sessionId submissionId now w
  | .compact reached now => compactSteeringAttempts reached now w
  | .assignRunner runnerId => { w with runnerId := runnerId }

def run (w : World) (ops : List Op) : World := ops.foldl step w

theorem run_append (w : World) (ops more : List Op) : run w (ops ++ more) = run (run w ops) more := List.foldl_append

theorem run_concat (w : World) (ops : List Op) (op : Op) : run w (ops ++ [op]) = step (run w ops) op := by
  rw [run_append]
  rfl

end Wollipog.Steering

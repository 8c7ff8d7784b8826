import Wollipog.Lib.Run
import Mathlib
/-!
# Store — the control plane's cache of a session's transcript

A session's cached events carry the control plane's own seq, and those from the runner its seq too. The functions are
the transactions on one session; a row is told by its seq where the source goes by row id.
-/
namespace Wollipog.Transcript

inductive Kind
  | userMessage | agentMessage | agentResponseCompleted | tokenUsage | artifactAttached | toolCall
  | other (kind : String)
  deriving DecidableEq

/-- A member of a payload, where it is present: its text, or `none` for a value of another type. -/
abbrev Member := Option (Option String)

structure Payload where
  kind : Kind
  text : String := ""
  final : Option Bool := none
  parentToolUseId : Member := none
  messageId : Member := none
  /-- The length of the stored JSON. -/
  bytes : Nat := 0
  deriving DecidableEq

/-- A row of `session_events`. -/
structure EventRow where
  seq : Nat
  runnerSeq : Option Nat
  ts : Nat
  payload : Payload
  deriving DecidableEq

/-- The `history_prune_*` columns. -/
structure Prune where
  prunedEvents : Nat := 0
  throughSeq : Option Nat := none
  removedSeq : Option Nat := none
  runEvents : Option Nat := none
  runSeq : Option Nat := none
  runResponseSeq : Option Nat := none
  deriving DecidableEq

structure Session where
  events : List EventRow
  messageCount : Option Nat
  hydratedSeq : Nat
  runnerHistoryEpoch : Option Nat
  runnerHistoryTailSeq : Nat
  eventEpoch : Nat
  recoveredEventEpochs : Nat
  prune : Prune
  deriving DecidableEq

/-- What `ingestRollback` holds of one session. -/
structure Watch where
  settled : Bool
  runnerTail : Option Nat
  controlPlaneEvents : Bool
  deriving DecidableEq

def Watch.new : Watch := ⟨false, none, false⟩

/-- A session with its part of `ingestRollback`, which is present when the host rebooted since the last open. -/
structure Cache where
  session : Session
  ingestRollback : Option Watch
  deriving DecidableEq

/-- `ORDER BY seq`. -/
def orderBySeq (rows : List EventRow) : List EventRow := rows.insertionSort (fun a b => a.seq ≤ b.seq)

def maxSeq (rows : List EventRow) : Nat := (rows.map EventRow.seq).foldr max 0

namespace Session

def sessionSeqHighWater (s : Session) : Nat := max (maxSeq s.events) (s.prune.throughSeq.getD 0)

def advanceEventEpoch (s : Session) : Session :=
  { s with eventEpoch := s.eventEpoch + 1, recoveredEventEpochs := s.recoveredEventEpochs + 1 }

def insertEvent (s : Session) (runnerSeq : Option Nat) (ts : Nat) (payload : Payload) : Session :=
  { s with events := s.events ++ [⟨s.sessionSeqHighWater + 1, runnerSeq, ts, payload⟩] }

def bumpMessageCount (s : Session) (n : Nat) : Session := { s with messageCount := some (s.messageCount.getD 0 + n) }

/-- `UPDATE sessions SET hydrated_seq=? WHERE id=? AND hydrated_seq < ?` -/
def raiseHydratedSeq (s : Session) : Option Nat → Session
  | none => s
  | some r => if s.hydratedSeq < r then { s with hydratedSeq := r } else s

end Session

namespace Cache

def settleIngestRollback (c : Cache) : Cache :=
  { c with ingestRollback := c.ingestRollback.map (fun _ => ⟨true, none, false⟩) }

def ingestReassignsSequence (c : Cache) : Bool := c.ingestRollback.any Watch.controlPlaneEvents

def noteCommittedIngest (c : Cache) (runnerSeq : Option Nat) : Cache :=
  match c.ingestRollback with
  | none => c
  | some recovery =>
    if recovery.settled then c
    else
      match runnerSeq with
      | none => { c with ingestRollback := some { recovery with controlPlaneEvents := true } }
      | some r =>
        if recovery.runnerTail.all (· ≤ r) then c.settleIngestRollback
        else { c with ingestRollback := some { recovery with controlPlaneEvents := false } }

/-- The session that a runner event goes into: at a new epoch where it may take the seq of a lost one. -/
def ingestSession (c : Cache) (fromRunner : Bool) : Session :=
  if fromRunner && c.ingestReassignsSequence then c.session.advanceEventEpoch else c.session

def appendEvent (c : Cache) (payload : Payload) (ts : Nat) (runnerSeq : Option Nat) : Cache :=
  noteCommittedIngest { c with
    session := (((c.ingestSession runnerSeq.isSome).insertEvent runnerSeq ts payload).bumpMessageCount 1).raiseHydratedSeq
      runnerSeq } runnerSeq

structure HydratedRunnerEvent where
  seq : Nat
  ts : Nat
  payload : Payload
  deriving DecidableEq

structure Expected where
  afterSeq : Nat
  historyEpoch : Nat
  eventEpoch : Nat
  deriving DecidableEq

inductive PageResult
  | applied (eventEpoch : Nat) | stale | refused (error : String)
  deriving DecidableEq

/-- `hydrated runner events must be contiguous after the expected cursor` -/
def contiguous : Nat → List HydratedRunnerEvent → Bool
  | _, [] => true
  | afterSeq, event :: events => event.seq == afterSeq + 1 && contiguous (afterSeq + 1) events

def insertPage (s : Session) (events : List HydratedRunnerEvent) : Session :=
  events.foldl (fun s event => s.insertEvent (some event.seq) event.ts event.payload) s

def Expected.current (expected : Expected) (s : Session) : Bool :=
  s.hydratedSeq == expected.afterSeq && s.runnerHistoryEpoch == some expected.historyEpoch && s.eventEpoch == expected.eventEpoch

def appendHydratedPage (c : Cache) (expected : Expected) (events : List HydratedRunnerEvent) : Cache × PageResult :=
  if !contiguous expected.afterSeq events then
    (c, .refused "hydrated runner events must be contiguous after the expected cursor")
  else if !expected.current c.session then (c, .stale)
  else
    match events.getLast? with
    | none => (c, .applied c.session.eventEpoch)
    | some final =>
      let s := c.ingestSession true
      (noteCommittedIngest { c with
        session := { (insertPage s events).bumpMessageCount events.length with
          hydratedSeq := final.seq
          runnerHistoryTailSeq := if s.runnerHistoryTailSeq < final.seq then final.seq else s.runnerHistoryTailSeq } }
        (some final.seq), .applied s.eventEpoch)

def ownAttachment (row : EventRow) : Bool := row.payload.kind == .artifactAttached && row.runnerSeq.isNone

def resequence (rows : List EventRow) : List EventRow :=
  (orderBySeq (rows.filter ownAttachment)).mapIdx (fun index attachment => { attachment with seq := index + 1 })

structure RunnerHistoryReconciliation where
  reset : Bool
  historyEpoch : Option Nat
  tailSeq : Nat
  hydratedSeq : Nat
  eventEpoch : Nat
  complete : Bool
  deriving DecidableEq

def replacesHistory (s : Session) (historyEpoch : Option Nat) : Bool :=
  historyEpoch.isSome && s.runnerHistoryEpoch.isSome && s.runnerHistoryEpoch != historyEpoch

def resetHistory (s : Session) (historyEpoch : Option Nat) (tailSeq : Nat) : Session :=
  let kept := resequence s.events
  { s with
    events := kept, messageCount := some kept.length, hydratedSeq := 0, runnerHistoryEpoch := historyEpoch,
    runnerHistoryTailSeq := tailSeq, eventEpoch := s.eventEpoch + 1, prune := {} }

def reconciledSession (s : Session) (historyEpoch : Option Nat) (tailSeq : Nat) : Session :=
  if replacesHistory s historyEpoch then resetHistory s historyEpoch tailSeq
  else { s with
    runnerHistoryEpoch := historyEpoch.or s.runnerHistoryEpoch
    runnerHistoryTailSeq := max tailSeq (max s.runnerHistoryTailSeq s.hydratedSeq) }

def noteRunnerTail (c : Cache) (reset : Bool) : Cache :=
  if reset || c.session.runnerHistoryTailSeq ≤ c.session.hydratedSeq then c.settleIngestRollback
  else { c with ingestRollback := c.ingestRollback.map (fun recovery =>
    if recovery.settled then recovery else { recovery with runnerTail := some c.session.runnerHistoryTailSeq }) }

def reconcileRunnerHistory (c : Cache) (historyEpoch : Option Nat) (tailSeq : Nat) : Cache × RunnerHistoryReconciliation :=
  let reset := replacesHistory c.session historyEpoch
  let after := reconciledSession c.session historyEpoch tailSeq
  (noteRunnerTail { c with session := after } reset,
    { reset := reset, historyEpoch := after.runnerHistoryEpoch, tailSeq := after.runnerHistoryTailSeq
      hydratedSeq := after.hydratedSeq, eventEpoch := after.eventEpoch
      complete := after.runnerHistoryEpoch.isSome && after.runnerHistoryTailSeq ≤ after.hydratedSeq })

def clearSessionEvents (c : Cache) : Cache :=
  settleIngestRollback { c with
    session := { c.session with
      events := [], messageCount := some 0, hydratedSeq := 0, runnerHistoryEpoch := none, runnerHistoryTailSeq := 0,
      eventEpoch := c.session.eventEpoch + 1, prune := {} } }

end Cache

/-! ## Pruning an archived session -/

structure FinalResponse where
  messageId : Option String
  afterSeq : Nat
  lastSeq : Nat
  seq : Nat
  deriving DecidableEq

def topLevelMessage (row : EventRow) : Bool := row.payload.kind == .agentMessage && row.payload.parentToolUseId.isNone

def untaggedPart (row : EventRow) : Bool :=
  topLevelMessage row && row.payload.messageId.isNone && !row.payload.final.getD false

def historyPruneFinalResponse (s : Session) : FinalResponse :=
  match (orderBySeq s.events).reverse.find? topLevelMessage with
  | none => ⟨none, 0, 0, 0⟩
  | some last =>
    match last.payload.messageId with
    | some (some messageId) => ⟨some messageId, 0, 0, last.seq⟩
    | _ =>
      let boundary := (orderBySeq s.events).reverse.find? (fun row =>
        decide (row.seq < last.seq) && row.payload.kind != .tokenUsage && !untaggedPart row)
      let removed := s.prune.removedSeq.getD 0
      ⟨none, max (boundary.elim 0 EventRow.seq) (if removed < last.seq then removed else 0), last.seq, last.seq⟩

/-- `HISTORY_PRUNE_KEEP_SQL` -/
def keepRule (response : FinalResponse) (row : EventRow) : Bool :=
  row.payload.kind ∈ [.userMessage, .agentResponseCompleted, .tokenUsage, .artifactAttached] ||
    topLevelMessage row &&
      (row.payload.final == some true && row.payload.text.toList.any (· ≠ ' ') ||
        response.messageId.isSome && row.payload.messageId == some response.messageId ||
        decide (response.afterSeq < row.seq) && decide (row.seq ≤ response.lastSeq) && row.payload.messageId.isNone)

structure ArchiveState where
  archived : Bool
  archivedAt : Option Nat
  terminal : Bool
  stopping : Bool
  deriving DecidableEq

structure PruneInput where
  cutoff : Nat
  maxEvents : Nat
  maxPayloadBytes : Nat
  maxSearchLength : Nat
  /-- The session's archive columns when the batch runs. -/
  archive : ArchiveState
  /-- The length of the search row of the event at a seq, 0 where it has none. -/
  searchLength : Nat → Nat

def PruneInput.eligible (input : PruneInput) : Bool :=
  input.archive.archived && input.archive.archivedAt.any (· ≤ input.cutoff) && input.archive.terminal && !input.archive.stopping

def historyPruneScanRows : Nat := 1024

def takeBatch (input : PruneInput) : Bool → Nat → Nat → List EventRow → List EventRow
  | _, _, _, [] => []
  | started, searchLength, payloadBytes, candidate :: rest =>
    let nextSearch := searchLength + input.searchLength candidate.seq
    let nextPayload := payloadBytes + candidate.payload.bytes
    if started && (decide (input.maxSearchLength < nextSearch) || decide (input.maxPayloadBytes < nextPayload)) then []
    else candidate :: takeBatch input true nextSearch nextPayload rest

inductive Batch
  | removed (events : List EventRow) | closed (complete : Bool)

/-- The session once a run is open and, where the final response moved, sent back to the first row. -/
def openRun (s : Session) (response : FinalResponse) : Session :=
  { s with prune := { s.prune with
    runEvents := some (s.prune.runEvents.getD 0)
    runSeq := if s.prune.runEvents.isNone || s.prune.runResponseSeq != some response.seq then some 0 else s.prune.runSeq
    runResponseSeq := some response.seq } }

def removeEvents (s : Session) (events : List EventRow) (throughSeq readThrough : Nat) : Session :=
  { s with
    events := s.events.filter (fun row => row.seq ∉ events.map EventRow.seq)
    messageCount := some (s.messageCount.getD 0 - events.length)
    prune := { s.prune with
      runEvents := s.prune.runEvents.map (· + events.length)
      throughSeq := some (max (s.prune.throughSeq.getD 0) throughSeq)
      removedSeq := some (max (s.prune.removedSeq.getD 0) throughSeq)
      runSeq := some readThrough } }

def windowEnd (s : Session) (after : Nat) : Option Nat :=
  (((orderBySeq s.events).filter (fun row => after < row.seq))[historyPruneScanRows - 1]?).map EventRow.seq

def pruneCandidates (s : Session) (response : FinalResponse) (after : Nat) (maxEvents : Nat) : List EventRow :=
  ((orderBySeq s.events).filter (fun row =>
    decide (after < row.seq) && (windowEnd s after).all (row.seq ≤ ·) && !keepRule response row)).take maxEvents

def removeBatch (s : Session) (input : PruneInput) (candidates : List EventRow) (window : Option Nat) : Session × Batch :=
  let events := takeBatch input false 0 0 candidates
  match events.getLast? with
  | none =>
    match window with
    | none => (s, .closed true)
    | some last => ({ s with prune := { s.prune with runSeq := some last } }, .removed [])
  | some final =>
    let readThrough :=
      if events.length = candidates.length ∧ candidates.length < input.maxEvents then window.getD final.seq else final.seq
    (removeEvents s events final.seq readThrough, .removed events)

def removeArchivedHistoryBatch (s : Session) (input : PruneInput) : Session × Batch :=
  if !input.eligible then (s, .closed false)
  else
    let response := historyPruneFinalResponse s
    let opened := openRun s response
    let after := opened.prune.runSeq.getD 0
    removeBatch opened input (pruneCandidates opened response after input.maxEvents) (windowEnd opened after)

def closedRun (prune : Prune) (runEvents : Nat) : Prune :=
  { prune with prunedEvents := prune.prunedEvents + runEvents, runEvents := none, runSeq := none, runResponseSeq := none }

def finishArchivedHistoryPrune (s : Session) (complete : Bool) : Session :=
  match s.prune.runEvents with
  | none => s
  | some runEvents =>
    let covered := if complete then { s.prune with throughSeq := some s.sessionSeqHighWater } else s.prune
    let closed := { s with prune := closedRun covered runEvents }
    if 0 < runEvents then closed.advanceEventEpoch else closed

def pruneArchivedHistoryBatch (s : Session) (input : PruneInput) : Session :=
  match removeArchivedHistoryBatch s input with
  | (batched, .removed _) => batched
  | (batched, .closed complete) => finishArchivedHistoryPrune batched complete

end Wollipog.Transcript

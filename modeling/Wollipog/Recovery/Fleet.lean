import Wollipog.Lib.Run
import Wollipog.Recovery.Turn
/-!
# Fleet — recovering many sessions with a few workers

The workers of a round give each pending request a turn; what is not complete is put back with its cursor.
-/
namespace Wollipog.Recovery

open Segment

variable {π : Type}

structure Entry where
  origin : SessionHistoryRecoveryRequest
  request : SessionHistoryRecoveryRequest
deriving DecidableEq

inductive Worker (π : Type)
  | free
  | busy (entry : Entry) (turn : Turn π) (next : Next)
  | done

inductive Stage
  | running
  | resting
  | finished
deriving DecidableEq

/-- The variables of `recoverSessionHistories`, and whether the view is current. -/
structure Fleet (π : Type) where
  current : Bool
  pending : List Entry
  next : Nat
  workers : List (Worker π)
  immediateRetry : List Entry
  delayedRetry : List Entry
  delayed : List Entry
  stage : Stage

inductive FleetEvent (π : Type)
  | cancel
  /-- A worker at the head of its loop runs. -/
  | work (k : Nat)
  /-- The page that a worker's turn awaits comes in, or its error. -/
  | fetched (k : Nat) (page : Option (SessionEventsResponse π)) (stillCurrent : Bool)
  | waited (k : Nat)
  /-- A worker goes on behind its turn. -/
  | settled (k : Nat)
  /-- All workers are done. -/
  | joined
  | rested

inductive Observation (π : Type)
  | cancelled
  | started (k : Nat) (entry : Entry)
  | paged (entry : Entry) (page : SessionEventsResponse π)
  | gave (k : Nat) (entry : Entry) (call : ApplyPage π)
  /-- A turn returned; with it the head that its last page told, if that page completed the history. -/
  | ended (entry : Entry) (result : TurnResult) (head : Option Int)
  | queued (entry : Entry)

def turnOptions (options : Options) : Options :=
  { options with retryOnIdleTimeout := false, maxPagesPerTurn := some (options.maxPagesPerTurn.getD 8) }

def Fleet.open (w : Fleet π) (concurrency : Nat) (pending : List Entry) : Fleet π :=
  if pending.isEmpty || !w.current then { w with pending := pending, stage := .finished }
  else { w with
    pending := pending
    next := 0
    workers := List.replicate (min (max 1 concurrency) pending.length) .free
    immediateRetry := []
    delayedRetry := []
    stage := .running }

def Fleet.start (requests : List SessionHistoryRecoveryRequest) (concurrency : Nat) : Fleet π :=
  Fleet.open ⟨true, [], 0, [], [], [], [], .running⟩ concurrency
    (requests.map (fun r => ⟨{ r with initialPagePainted := false }, { r with initialPagePainted := false }⟩))

def Fleet.setWorker (w : Fleet π) (k : Nat) (worker : Worker π) : Fleet π := { w with workers := w.workers.set k worker }

def endOf (entry : Entry) (head : Option Int) : Next → List (Observation π)
  | .returned result => [.ended entry result head]
  | _ => []

def pageOf (entry : Entry) : Option (SessionEventsResponse π) → List (Observation π)
  | some page => if page.responseEpoch entry.request = entry.request.eventEpoch then [.paged entry page] else []
  | none => []

def resultOf (entry : Entry) : Next → Option TurnResult
  | .returned result => some result
  | .threw => some ⟨false, entry.request.after, false, entry.request.initialPagePainted⟩
  | _ => none

def Entry.retry (entry : Entry) (result : TurnResult) : Entry :=
  { entry with request := { entry.request with after := result.after, initialPagePainted := result.initialPagePainted } }

section

variable [DecidableEq π] (log : String → Int → List (SessionEvent π)) (options : Options) (concurrency : Nat)

def logOf (request : SessionHistoryRecoveryRequest) : List (SessionEvent π) := log request.sessionId request.eventEpoch

def Fleet.step (w : Fleet π) : FleetEvent π → Option (Fleet π × List (Observation π))
  | .cancel => some ({ w with current := false }, [.cancelled])
  | .work k =>
    match w.workers[k]? with
    | some .free =>
      if !w.current then some (w.setWorker k .done, [])
      else match w.pending[w.next]? with
        | none => some ({ w with next := w.next + 1 }.setWorker k .done, [])
        | some entry =>
          some ({ w with next := w.next + 1 }.setWorker k (.busy entry (Turn.start entry.request) .fetchPage), [.started k entry])
    | _ => none
  | .fetched k page stillCurrent =>
    match w.workers[k]? with
    | some (.busy entry turn .fetchPage) =>
      if page.all (fun page => decide (page.Serves (logOf log entry.request) entry.request turn.after)) then
        match turn.receive (turnOptions options) entry.request page w.current (w.current && stillCurrent) with
        | (turn', applied, next) =>
          some ({ w with current := w.current && stillCurrent }.setWorker k (.busy entry turn' next),
            pageOf entry page ++ applied.map (.gave k entry) ++
              endOf entry (Turn.headOf page turn.after) next ++ if w.current && !stillCurrent then [.cancelled] else [])
      else none
    | _ => none
  | .waited k =>
    match w.workers[k]? with
    | some (.busy entry turn (.wait _)) =>
      some (w.setWorker k (.busy entry turn (turn.loop w.current)), endOf entry none (turn.loop w.current))
    | _ => none
  | .settled k =>
    match w.workers[k]? with
    | some (.busy entry _ next) =>
      (resultOf entry next).map (fun result =>
        if !result.complete && (result.yielded || options.retryOnIdleTimeout) && w.current then
          if result.yielded then
            ({ w with immediateRetry := w.immediateRetry ++ [entry.retry result] }.setWorker k .free, [.queued (entry.retry result)])
          else ({ w with delayedRetry := w.delayedRetry ++ [entry.retry result] }.setWorker k .free, [.queued (entry.retry result)])
        else (w.setWorker k .free, []))
    | _ => none
  | .joined =>
    if w.stage = .running && w.workers.all (fun worker => match worker with | .done => true | _ => false) then
      if !w.current then some ({ w with stage := .finished }, [])
      else if !w.immediateRetry.isEmpty then
        some (Fleet.open { w with delayed := w.delayed ++ w.delayedRetry } concurrency w.immediateRetry, [])
      else if (w.delayed ++ w.delayedRetry).isEmpty then some ({ w with delayed := [], stage := .finished }, [])
      else some ({ w with pending := w.delayed ++ w.delayedRetry, delayed := [], delayedRetry := [], workers := [], stage := .resting }, [])
    else none
  | .rested => if w.stage = .resting then some (w.open concurrency w.pending, []) else none

end

end Wollipog.Recovery

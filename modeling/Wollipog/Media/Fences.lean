import Mathlib.Logic.Function.Basic
import Wollipog.Lib.Js
/-!
# Fences — the runner's durable launch fence and the permanent Stop claim of a media command

`claim` and `cancelBeforeLaunch` are each one savepoint over `runner_media_dispatch_fences`, keyed by session and
generation.
-/
namespace Wollipog
namespace Media

structure FenceIdentity where
  rootSessionId : String
  sessionId : String
  runnerId : String
  generation : String
  commandSha256 : String
  dispatchSha256 : String
deriving DecidableEq, Repr

structure NeverDispatchedFence extends FenceIdentity where
  outcome : String
  fenceSha256 : String
deriving DecidableEq, Repr

def id_ (v : String) : Bool := Js.boundedId 256 v

def validMediaDispatchFenceIdentity (v : FenceIdentity) : Bool :=
  [v.rootSessionId, v.sessionId, v.runnerId, v.generation].all id_ && decide (v.rootSessionId ≠ v.sessionId) &&
    Js.isSha256Hex v.commandSha256 && Js.isSha256Hex v.dispatchSha256

/-- The members of a fence body without its outcome, in the order that serialization fixes. -/
def identityMembers (v : FenceIdentity) : List (String × String) :=
  [("rootSessionId", v.rootSessionId), ("sessionId", v.sessionId), ("runnerId", v.runnerId),
    ("generation", v.generation), ("commandSha256", v.commandSha256), ("dispatchSha256", v.dispatchSha256)]

def canonicalIdentity (v : FenceIdentity) : String := Js.quoteObject (identityMembers v)

def receiptFor (sha256 : String → String) (v : FenceIdentity) : NeverDispatchedFence :=
  { v with
    outcome := "never_dispatched"
    fenceSha256 := sha256 (Js.quoteObject (identityMembers v ++ [("outcome", "never_dispatched")])) }

inductive FenceState | claimed | cancelled
deriving DecidableEq, Repr

/-- A row of `runner_media_dispatch_fences`. -/
structure FenceRow where
  identity : String
  state : FenceState
  stopOperationId : Option String
deriving DecidableEq, Repr

inductive StopOutcome | unknown | stopRequested
deriving DecidableEq, Repr

/-- A row of `runner_media_active_stops`. -/
structure StopRow where
  request : String
  sha256 : String
  outcome : StopOutcome
deriving DecidableEq, Repr

abbrev Key := String × String

def FenceIdentity.key (v : FenceIdentity) : Key := (v.sessionId, v.generation)

structure Db where
  fences : Key → Option FenceRow
  stops : Key → Option StopRow

def Db.empty : Db := ⟨fun _ => none, fun _ => none⟩

def Db.setFence (db : Db) (k : Key) (r : FenceRow) : Db := { db with fences := Function.update db.fences k (some r) }
def Db.setStop (db : Db) (k : Key) (r : StopRow) : Db := { db with stops := Function.update db.stops k (some r) }

@[simp] theorem Db.setFence_fences (db : Db) (k j : Key) (r : FenceRow) :
    (db.setFence k r).fences j = if j = k then some r else db.fences j := by
  simp only [Db.setFence, Function.update_apply]

@[simp] theorem Db.setStop_fences (db : Db) (k : Key) (r : StopRow) : (db.setStop k r).fences = db.fences := rfl

def existing (db : Db) (v : FenceIdentity) : Option FenceRow := db.fences v.key

def claim (db : Db) (v : FenceIdentity) : Bool × Db :=
  if !validMediaDispatchFenceIdentity v then (false, db)
  else
    match existing db v with
    | some _ => (false, db)
    | none => (true, db.setFence v.key ⟨canonicalIdentity v, .claimed, none⟩)

def claimed (db : Db) (v : FenceIdentity) : Bool :=
  validMediaDispatchFenceIdentity v &&
    match existing db v with
    | some prior => prior.state == .claimed && prior.identity == canonicalIdentity v
    | none => false

def stopOperation (db : Db) (v : FenceIdentity) : Option String :=
  if claimed db v then (existing db v).bind FenceRow.stopOperationId else none

def claimStop (db : Db) (v : FenceIdentity) (operationId : String) : Bool × Db :=
  if !claimed db v || !id_ operationId then (false, db)
  else
    match existing db v with
    | some row =>
      if row.identity == canonicalIdentity v && row.state == .claimed && row.stopOperationId.isNone then
        (true, db.setFence v.key { row with stopOperationId := some operationId })
      else (false, db)
    | none => (false, db)

def cancelBeforeLaunch (sha256 : String → String) (db : Db) (v : FenceIdentity) : Option NeverDispatchedFence × Db :=
  if !validMediaDispatchFenceIdentity v then (none, db)
  else
    match existing db v with
    | some prior =>
      (if prior.state == .cancelled && prior.identity == canonicalIdentity v then some (receiptFor sha256 v) else none, db)
    | none => (some (receiptFor sha256 v), db.setFence v.key ⟨canonicalIdentity v, .cancelled, none⟩)

/-- **A call touches the fences by one new row, or by one Stop operation on a claimed row.** -/
inductive Touch (db db' : Db) : Prop
  | same (h : db'.fences = db.fences)
  | fresh (k : Key) (r : FenceRow) (h0 : db.fences k = none) (h : db'.fences = (db.setFence k r).fences)
  | stop (k : Key) (r : FenceRow) (op : String) (h0 : db.fences k = some r) (hn : r.stopOperationId = none)
      (h : db'.fences = (db.setFence k { r with stopOperationId := some op }).fences)

theorem claim_cases (db : Db) (v : FenceIdentity) : (claim db v = (false, db)) ∨
      (db.fences v.key = none ∧ claim db v = (true, db.setFence v.key ⟨canonicalIdentity v, .claimed, none⟩)) := by
  unfold claim existing
  split
  · exact .inl rfl
  · split
    · exact .inl rfl
    · rename_i h; exact .inr ⟨h, rfl⟩

theorem claim_touch (db : Db) (v : FenceIdentity) : Touch db (claim db v).2 := by
  rcases claim_cases db v with h | ⟨h0, h⟩
  · rw [h]; exact .same rfl
  · rw [h]; exact .fresh v.key _ h0 rfl

theorem claimStop_cases (db : Db) (v : FenceIdentity) (op : String) : (claimStop db v op = (false, db)) ∨
      ∃ row, db.fences v.key = some row ∧ row.stopOperationId = none ∧
        claimStop db v op = (true, db.setFence v.key { row with stopOperationId := some op }) := by
  unfold claimStop existing
  split
  · exact .inl rfl
  · split
    · rename_i row hrow
      split
      · rename_i hc
        simp only [Bool.and_eq_true, Option.isNone_iff_eq_none] at hc
        exact .inr ⟨row, hrow, hc.2, rfl⟩
      · exact .inl rfl
    · exact .inl rfl

theorem cancel_cases (sha256 : String → String) (db : Db) (v : FenceIdentity) :
    ((cancelBeforeLaunch sha256 db v).1 = none ∧ (cancelBeforeLaunch sha256 db v).2 = db) ∨
    (∃ row, db.fences v.key = some row ∧ row.state = .cancelled ∧ (cancelBeforeLaunch sha256 db v).2 = db) ∨
    (db.fences v.key = none ∧
      (cancelBeforeLaunch sha256 db v).2 = db.setFence v.key ⟨canonicalIdentity v, .cancelled, none⟩) := by
  unfold cancelBeforeLaunch existing
  split
  · exact .inl ⟨rfl, rfl⟩
  · split
    · rename_i prior hp
      split
      · rename_i hc
        simp only [Bool.and_eq_true, beq_iff_eq] at hc
        exact .inr (.inl ⟨prior, hp, hc.1, rfl⟩)
      · exact .inl ⟨rfl, rfl⟩
    · rename_i hn
      exact .inr (.inr ⟨hn, rfl⟩)

theorem cancel_touch (sha256 : String → String) (db : Db) (v : FenceIdentity) :
    Touch db (cancelBeforeLaunch sha256 db v).2 := by
  rcases cancel_cases sha256 db v with ⟨-, h⟩ | ⟨_, -, -, h⟩ | ⟨h0, h⟩
  · rw [h]; exact .same rfl
  · rw [h]; exact .same rfl
  · rw [h]; exact .fresh v.key _ h0 rfl

def InState (db : Db) (k : Key) (st : FenceState) : Prop := ∃ row, db.fences k = some row ∧ row.state = st

/-- **No call moves a fence out of its state.** -/
theorem Touch.inState {db db' : Db} (h : Touch db db') {k : Key} {st : FenceState} (hk : InState db k st) :
    InState db' k st := by
  obtain ⟨row, hrow, hst⟩ := hk
  cases h with
  | same h => exact ⟨row, by rw [h]; exact hrow, hst⟩
  | fresh j r h0 h =>
    have hjk : k ≠ j := by rintro rfl; rw [hrow] at h0; cases h0
    exact ⟨row, by rw [h, Db.setFence_fences, if_neg hjk]; exact hrow, hst⟩
  | stop j r op h0 hn h =>
    by_cases hjk : k = j
    · subst hjk
      obtain rfl : row = r := by rw [hrow] at h0; exact Option.some.inj h0
      exact ⟨{ row with stopOperationId := some op }, by rw [h, Db.setFence_fences, if_pos rfl], hst⟩
    · exact ⟨row, by rw [h, Db.setFence_fences, if_neg hjk]; exact hrow, hst⟩

def StopTaken (db : Db) (k : Key) : Prop := ∃ row, db.fences k = some row ∧ row.stopOperationId ≠ none

/-- **A Stop once claimed stays claimed.** -/
theorem Touch.stopTaken {db db' : Db} (h : Touch db db') {k : Key} (hk : StopTaken db k) : StopTaken db' k := by
  obtain ⟨row, hrow, hop⟩ := hk
  cases h with
  | same h => exact ⟨row, by rw [h]; exact hrow, hop⟩
  | fresh j r h0 h =>
    have hjk : k ≠ j := by rintro rfl; rw [hrow] at h0; cases h0
    exact ⟨row, by rw [h, Db.setFence_fences, if_neg hjk]; exact hrow, hop⟩
  | stop j r op h0 hn h =>
    have hjk : k ≠ j := by
      rintro rfl
      rw [hrow] at h0
      cases h0
      exact hop hn
    exact ⟨row, by rw [h, Db.setFence_fences, if_neg hjk]; exact hrow, hop⟩

end Media
end Wollipog

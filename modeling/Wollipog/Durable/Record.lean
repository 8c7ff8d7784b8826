import Wollipog.Lib.Js
/-!
# Record — the durable command record and its transitions

The fields of `DurableCommandRecord`, the message that creates one, and `transitionLocked` up to its write: what the
checks let through, and the record it writes.
-/
namespace Wollipog
namespace Durable

inductive State | accepted | queued | started | completed | failed | uncertain
deriving DecidableEq, Repr

inductive Kind | startSession | promptSession | answerRecoveredQuestion
deriving DecidableEq, Repr

inductive ErrorCode
  | commandIdConflict | commandExpired | invalidCommand | sessionNotFound | queueFull | commandCancelled
  | providerAuthenticationRequired | worktreeRecoveryRequired | receiptStoreFull
deriving DecidableEq, Repr

structure Record where
  commandId : String
  executionId : String
  kind : Kind
  sessionId : String
  payloadHmac : String
  state : State
  revision : Nat
  ownerId : String
  createdAt : Int
  updatedAt : Int
  expiresAt : Int
  error : Option String
  code : Option ErrorCode
  userEventSeq : Option Int
  steeringPending : Option Bool
deriving DecidableEq, Repr

structure Command where
  kind : Kind
  sessionId : String
  canonicalJson : String
deriving DecidableEq, Repr

structure Message where
  commandId : String
  executionId : String
  payloadDigest : String
  expiresAt : Int
  command : Command
deriving DecidableEq, Repr

structure Receipt where
  commandId : String
  sessionId : String
  state : State
  revision : Nat
  duplicate : Bool
  error : Option String
  code : Option ErrorCode
  userEventSeq : Option Int
deriving DecidableEq, Repr

def maxError : Nat := 512

def nonempty (s : Option String) : Option String := s.filter (fun t => !t.isEmpty)

def receipt (r : Record) (duplicate : Bool) : Receipt where
  commandId := r.commandId
  sessionId := r.sessionId
  -- the local crash fence is not published as proof of delivery
  state := if r.state = .started ∧ r.steeringPending = some true then .queued else r.state
  revision := r.revision
  duplicate := duplicate
  error := nonempty r.error
  code := r.code
  userEventSeq := r.userEventSeq

def failedReceipt (m : Message) (code : ErrorCode) (error : String) : Receipt where
  commandId := m.commandId
  sessionId := m.command.sessionId
  state := .failed
  revision := 0
  duplicate := false
  error := some (Js.slice maxError error)
  code := some code
  userEventSeq := none

def isTerminal (s : State) : Bool := s == .completed || s == .failed || s == .uncertain

def transitionAllowed (f t : State) : Bool :=
  if f = t then true
  else if isTerminal f then false
  else if t = .failed ∨ t = .uncertain then true
  else if f = .accepted then t == .queued || t == .started || t == .completed
  else if f = .queued then t == .started || t == .completed
  else f == .started && t == .completed

structure Patch where
  error : Option String := none
  code : Option ErrorCode := none
  userEventSeq : Option Int := none
  steeringPending : Option Bool := none

def replayReset (current : Record) (state : State) (takeOwnership : Bool) : Bool :=
  takeOwnership && current.state == .queued && state == .accepted

def rejectedSteeringReset (current : Record) (state : State) (patch : Patch) (takeOwnership : Bool) : Bool :=
  !takeOwnership && current.kind == .answerRecoveredQuestion && current.state == .started && state == .queued &&
    current.steeringPending == some true && patch.steeringPending == some false && current.userEventSeq.isNone

/-- The checks of `transitionLocked` on the record it read, and the record it would write. -/
def transitionNext (self : String) (now : Int) (current prior : Record) (state : State) (patch : Patch)
    (takeOwnership : Bool) : Except String Record :=
  if current.revision ≠ prior.revision then .error "durable command receipt changed concurrently"
  else if !takeOwnership && decide (current.ownerId ≠ self) then
    .error "durable command receipt is owned by another runner process"
  else if !replayReset current state takeOwnership && !rejectedSteeringReset current state patch takeOwnership &&
      !transitionAllowed current.state state then .error "invalid durable command transition"
  else
    .ok { current with
      state := state
      revision := current.revision + 1
      ownerId := self
      updatedAt := now
      error := (nonempty patch.error).map (Js.slice maxError)
      code := patch.code
      userEventSeq := patch.userEventSeq <|> current.userEventSeq
      steeringPending := patch.steeringPending <|> current.steeringPending }

variable {take : Bool} {patch : Patch} {state t : State} {c : Record}

theorem transitionAllowed_terminal {f : State} (hf : isTerminal f = true) (h : transitionAllowed f t = true) : t = f := by
  revert hf h
  cases f <;> cases t <;> decide

theorem transitionAllowed_started (h : transitionAllowed .started t = true) : t = .started ∨ isTerminal t = true := by
  revert h
  cases t <;> decide

theorem replayReset_iff : replayReset c state take = true ↔ (take = true ∧ c.state = .queued) ∧ state = .accepted := by
  simp only [replayReset, Bool.and_eq_true, beq_iff_eq]

theorem rejectedSteeringReset_state
    (h : rejectedSteeringReset c state patch take = true) : take = false ∧ c.state = .started ∧ state = .queued := by
  simp only [rejectedSteeringReset, Bool.and_eq_true, Bool.not_eq_true', beq_iff_eq] at h
  obtain ⟨⟨⟨⟨⟨⟨ht, -⟩, hs⟩, hq⟩, -⟩, -⟩, -⟩ := h
  exact ⟨ht, hs, hq⟩

/-- **An accepted transition** continues the record it read, one revision on, from the revision the caller holds. -/
structure Continues (me : String) (prior current next : Record) (takeOwnership : Bool) : Prop where
  revision_prior : current.revision = prior.revision
  owner : takeOwnership = false → current.ownerId = me
  commandId : next.commandId = current.commandId
  expiresAt : next.expiresAt = current.expiresAt
  revision : next.revision = current.revision + 1
  ownerId : next.ownerId = me
  moves : transitionAllowed current.state next.state = true ∨
    (takeOwnership = true ∧ current.state = .queued ∧ next.state = .accepted) ∨
    (takeOwnership = false ∧ current.state = .started ∧ next.state = .queued)

theorem transitionNext_ok {self : String} {now : Int} {prior next : Record} (h : transitionNext self now c prior state patch take = .ok next) :
    Continues self prior c next take ∧ next.state = state := by
  unfold transitionNext at h
  split at h
  · cases h
  rename_i hrev
  split at h
  · cases h
  rename_i hown
  split at h
  · cases h
  rename_i hst
  simp only [Except.ok.injEq] at h
  subst h
  have howner : take = false → c.ownerId = self := by
    intro ht
    rcases Decidable.em (c.ownerId = self) with heq | hne
    · exact heq
    · exact absurd (by simp [ht, hne]) hown
  have hmoves : transitionAllowed c.state state = true ∨ (take = true ∧ c.state = .queued ∧ state = .accepted) ∨
      (take = false ∧ c.state = .started ∧ state = .queued) := by
    cases ha : transitionAllowed c.state state with
    | true => exact .inl rfl
    | false =>
      cases hr : replayReset c state take with
      | true =>
        obtain ⟨⟨ht, hq⟩, hacc⟩ := replayReset_iff.1 hr
        exact .inr (.inl ⟨ht, hq, hacc⟩)
      | false =>
        cases hs : rejectedSteeringReset c state patch take with
        | true => exact .inr (.inr (rejectedSteeringReset_state hs))
        | false => exact absurd (by rw [ha, hr, hs]; rfl) hst
  exact ⟨⟨Classical.not_not.1 hrev, howner, rfl, rfl, rfl, rfl, hmoves⟩, rfl⟩

end Durable
end Wollipog

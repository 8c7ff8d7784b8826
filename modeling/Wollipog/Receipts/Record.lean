import Wollipog.Lib.Js
/-!
# Record — the receipt of a manual session command

The fields of `SessionCommandReceiptRecord`, the message that creates one, `validRecord`, and `transitionLocked` up to
its write.
-/
namespace Wollipog
namespace Receipts

inductive State | accepted | queued | started | completed | rejected | uncertain
deriving DecidableEq, Repr

inductive ErrorCode
  | commandIdConflict | commandExpired | invalidCommand | sessionNotFound | queueFull | commandCancelled
  | providerAuthenticationRequired | receiptStoreFull | commandCatalogStale | commandUnavailable
  | commandModeUnsupported
deriving DecidableEq, Repr

inductive ExecutionMode | passthrough | structured
deriving DecidableEq, Repr

inductive Version | v1 | v2
deriving DecidableEq, Repr

structure Record where
  version : Version
  requestId : String
  invocationId : String
  submissionId : String
  sessionId : String
  payloadDigest : String
  state : State
  revision : Nat
  ownerId : String
  createdAt : Int
  updatedAt : Int
  expiresAt : Int
  providerCommandId : Option String := none
  catalogRevision : Option String := none
  expectedExecutionMode : Option ExecutionMode := none
  argumentText : Option String := none
  error : Option String := none
  code : Option ErrorCode := none
  userEventSeq : Option Int := none
deriving DecidableEq, Repr

/-- `invoke_session_command`. -/
structure Message where
  requestId : String
  invocationId : String
  submissionId : String
  payloadDigest : String
  expiresAt : Int
  sessionId : String
  providerCommandId : String
  catalogRevision : String
  expectedExecutionMode : ExecutionMode
  argumentText : String
deriving DecidableEq, Repr

structure Receipt where
  requestId : String
  invocationId : String
  submissionId : String
  sessionId : String
  state : State
  revision : Nat
  duplicate : Bool
  error : Option String := none
  code : Option ErrorCode := none
  userEventSeq : Option Int := none
deriving DecidableEq, Repr

/-- `/^[A-Za-z0-9][A-Za-z0-9:._-]{0,127}$/` -/
def idTest (s : String) : Bool :=
  match s.toList with
  | [] => false
  | c :: cs => c.isAlphanum && decide (cs.length ≤ 127) && cs.all (fun d => d.isAlphanum || ":._-".toList.contains d)

def maxError : Nat := 512

def nonempty (s : Option String) : Option String := s.filter (fun t => !t.isEmpty)

def ExecutionMode.text : ExecutionMode → String
  | .passthrough => "passthrough"
  | .structured => "structured"

def sessionCommandInvocationPayloadDigest (sha256 : String → String) (m : Message) : String :=
  sha256 (Js.quoteObject [("argumentText", m.argumentText), ("catalogRevision", m.catalogRevision),
    ("expectedExecutionMode", m.expectedExecutionMode.text), ("providerCommandId", m.providerCommandId),
    ("sessionId", m.sessionId), ("submissionId", m.submissionId)])

def isInvokeSessionCommandMessage (m : Message) : Bool := !m.providerCommandId.isEmpty && !m.catalogRevision.isEmpty

def validateMessage (m : Message) (now : Int) : Option (ErrorCode × String) :=
  if !isInvokeSessionCommandMessage m then some (.invalidCommand, "session command envelope is malformed")
  else if !(List.all [m.requestId, m.invocationId, m.submissionId, m.sessionId] idTest) then
    some (.invalidCommand, "session command identity is invalid")
  else if !Js.isSha256Hex m.payloadDigest then some (.invalidCommand, "session command payload digest is invalid")
  else if m.expiresAt ≤ now then some (.commandExpired, "session command has expired")
  else none

def failedReceipt (m : Message) (code : ErrorCode) (error : String) : Receipt where
  requestId := m.requestId
  invocationId := m.invocationId
  submissionId := m.submissionId
  sessionId := m.sessionId
  state := .rejected
  revision := 1
  duplicate := false
  code := some code
  error := some (Js.slice maxError error)

def sameIdentity (a b : Record) : Bool :=
  a.payloadDigest == b.payloadDigest && a.submissionId == b.submissionId && a.sessionId == b.sessionId

def toReceipt (r : Record) (duplicate : Bool) (requestId : String) : Receipt where
  requestId := requestId
  invocationId := r.invocationId
  submissionId := r.submissionId
  sessionId := r.sessionId
  state := r.state
  revision := r.revision
  duplicate := duplicate
  error := nonempty r.error
  code := r.code
  userEventSeq := r.userEventSeq

def isTerminal (s : State) : Bool := s == .completed || s == .rejected || s == .uncertain

def transitionAllowed (f t : State) : Bool :=
  if isTerminal f then false
  else if f = t then true
  else if t = .rejected ∨ t = .uncertain then true
  else if f = .accepted then t == .queued || t == .started || t == .completed
  else if f = .queued then t == .started || t == .completed
  else f == .started && t == .completed

def validRecord (r : Record) : Bool :=
  let base := [r.requestId, r.invocationId, r.submissionId, r.sessionId].all idTest && Js.isSha256Hex r.payloadDigest &&
    decide (0 < r.revision)
  if !base || r.version == .v1 then base
  else (nonempty r.providerCommandId).isSome && (nonempty r.catalogRevision).isSome && r.expectedExecutionMode.isSome &&
    r.argumentText.isSome

def messageFromRecord (r : Record) : Option Message :=
  if r.version ≠ .v2 then none
  else
    match nonempty r.providerCommandId, nonempty r.catalogRevision, r.expectedExecutionMode, r.argumentText with
    | some providerCommandId, some catalogRevision, some expectedExecutionMode, some argumentText =>
      some { requestId := r.requestId, invocationId := r.invocationId, submissionId := r.submissionId
             payloadDigest := r.payloadDigest, expiresAt := r.expiresAt, sessionId := r.sessionId
             providerCommandId, catalogRevision, expectedExecutionMode, argumentText }
    | _, _, _, _ => none

structure Patch where
  error : Option String := none
  code : Option ErrorCode := none
  userEventSeq : Option Int := none

/-- The checks of `transitionLocked` on the record it read, and the record it would write. -/
def transitionNext (me : String) (now : Int) (current prior : Record) (state : State) (patch : Patch)
    (takeOwnership : Bool) : Except String Record :=
  if current.revision ≠ prior.revision then .error "session command receipt changed concurrently"
  else if !takeOwnership && decide (current.ownerId ≠ me) then
    .error "session command receipt is owned by another runner process"
  else if !(takeOwnership && current.state == .queued && state == .accepted) &&
      !transitionAllowed current.state state then .error "invalid session command transition"
  else
    .ok { current with
      state := state
      revision := current.revision + 1
      ownerId := me
      updatedAt := now
      error := ((nonempty patch.error).map (Js.slice maxError)) <|> current.error
      code := patch.code <|> current.code
      userEventSeq := patch.userEventSeq <|> current.userEventSeq }

/-- The record `claim` publishes. -/
def newRecord (me : String) (now : Int) (m : Message) : Record where
  version := .v2
  requestId := m.requestId
  invocationId := m.invocationId
  submissionId := m.submissionId
  sessionId := m.sessionId
  payloadDigest := m.payloadDigest
  state := .accepted
  revision := 1
  ownerId := me
  createdAt := now
  updatedAt := now
  expiresAt := m.expiresAt
  providerCommandId := some m.providerCommandId
  catalogRevision := some m.catalogRevision
  expectedExecutionMode := some m.expectedExecutionMode
  argumentText := some m.argumentText

def enriched (r : Record) (m : Message) : Record :=
  { r with
    version := .v2
    providerCommandId := some m.providerCommandId
    catalogRevision := some m.catalogRevision
    expectedExecutionMode := some m.expectedExecutionMode
    argumentText := some m.argumentText }

theorem nonempty_some {s : String} (h : s.isEmpty = false) : nonempty (some s) = some s := by
  simp [nonempty, Option.filter, h]

structure Validated (m : Message) (now : Int) : Prop where
  ids : [m.requestId, m.invocationId, m.submissionId, m.sessionId].all idTest = true
  digest : Js.isSha256Hex m.payloadDigest = true
  provider : m.providerCommandId.isEmpty = false
  catalog : m.catalogRevision.isEmpty = false
  fresh : now < m.expiresAt

variable {now : Int} {r : Record} {m : Message}

theorem validateMessage_none (h : validateMessage m now = none) : Validated m now := by
  unfold validateMessage at h
  split at h
  · cases h
  rename_i henvelope
  split at h
  · cases h
  rename_i hids
  split at h
  · cases h
  rename_i hdigest
  split at h
  · cases h
  rename_i hfresh
  simp only [isInvokeSessionCommandMessage, Bool.not_eq_true', Bool.not_eq_false, Bool.and_eq_true] at henvelope
  refine ⟨?_, ?_, henvelope.1, henvelope.2, ?_⟩
  · rw [Bool.not_eq_true', Bool.not_eq_false] at hids; exact hids
  · rw [Bool.not_eq_true', Bool.not_eq_false] at hdigest; exact hdigest
  · omega

theorem newRecord_valid (h : Validated m now) (me : String) : validRecord (newRecord me now m) = true := by
  unfold validRecord newRecord
  simp only [h.ids, h.digest, nonempty_some h.provider, nonempty_some h.catalog]
  rfl

theorem validRecord_base (h : validRecord r = true) :
    [r.requestId, r.invocationId, r.submissionId, r.sessionId].all idTest = true ∧
      Js.isSha256Hex r.payloadDigest = true ∧ 0 < r.revision := by
  unfold validRecord at h
  simp only at h
  split at h
  · simp only [Bool.and_eq_true, decide_eq_true_eq] at h
    exact ⟨h.1.1, h.1.2, h.2⟩
  · rename_i hbase
    simp only [Bool.or_eq_true, Bool.not_eq_true', not_or, Bool.not_eq_false, Bool.and_eq_true,
      decide_eq_true_eq] at hbase
    exact ⟨hbase.1.1.1, hbase.1.1.2, hbase.1.2⟩

theorem enriched_valid (hr : validRecord r = true) (hm : Validated m now) : validRecord (enriched r m) = true := by
  obtain ⟨hids, hdigest, hrev⟩ := validRecord_base hr
  unfold validRecord enriched
  simp only [hids, hdigest, hrev, nonempty_some hm.provider, nonempty_some hm.catalog]
  rfl

theorem validRecord_congr {s : Record} (h : validRecord r = true) (hv : s.version = r.version)
    (hq : s.requestId = r.requestId) (hi : s.invocationId = r.invocationId) (hsub : s.submissionId = r.submissionId)
    (hs : s.sessionId = r.sessionId) (hd : s.payloadDigest = r.payloadDigest) (hrev : 0 < s.revision)
    (hp : s.providerCommandId = r.providerCommandId) (hc : s.catalogRevision = r.catalogRevision)
    (he : s.expectedExecutionMode = r.expectedExecutionMode) (ha : s.argumentText = r.argumentText) :
    validRecord s = true := by
  have hbase := (validRecord_base h).2.2
  unfold validRecord at h ⊢
  simp only [hv, hq, hi, hsub, hs, hd, hp, hc, he, ha, hrev, hbase] at h ⊢
  exact h

/-- **An accepted transition** continues the record it read. -/
structure Follows (current next : Record) : Prop where
  invocationId : next.invocationId = current.invocationId
  expiresAt : next.expiresAt = current.expiresAt
  valid : validRecord current = true → validRecord next = true
  from_ : isTerminal current.state = false

theorem transitionNext_ok {me : String} {current prior next : Record} {state : State} {patch : Patch}
    {take : Bool} (h : transitionNext me now current prior state patch take = .ok next) : Follows current next := by
  unfold transitionNext at h
  split at h
  · cases h
  split at h
  · cases h
  split at h
  · cases h
  rename_i hmoves
  simp only [Except.ok.injEq] at h
  subst h
  refine ⟨rfl, rfl, fun hv => ?_, ?_⟩
  · exact validRecord_congr hv rfl rfl rfl rfl rfl rfl (Nat.succ_pos _) rfl rfl rfl rfl
  · cases hst : isTerminal current.state with
    | false => rfl
    | true =>
      have hblocked : transitionAllowed current.state state = false := by unfold transitionAllowed; rw [hst]; rfl
      have hqueued : (current.state == .queued) = false := by
        cases hs : current.state <;> rw [hs] at hst <;> first | rfl | cases hst
      exact absurd (by rw [hblocked, hqueued]; simp) hmoves

theorem messageFromRecord_some (h : messageFromRecord r = some m) : r.version = .v2 ∧ m.invocationId = r.invocationId := by
  unfold messageFromRecord at h
  split at h
  · cases h
  · rename_i hv
    split at h
    · cases h
      exact ⟨Classical.not_not.1 hv, rfl⟩
    · cases h

end Receipts
end Wollipog

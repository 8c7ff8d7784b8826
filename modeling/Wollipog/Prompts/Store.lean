import Mathlib
import Wollipog.Lib.Js
/-!
# Store — the durable prompt commands and the operations on them

The rows of `session_prompt_commands` in rowid order with the send attempts recorded for them, and every method that
writes them.
-/
namespace Wollipog.Prompts

inductive State
  | pending | sent | accepted | queued | started | completed | failed | uncertain
  deriving DecidableEq, Repr

/-- `state IN ('pending','sent','accepted','queued','started')` -/
def State.active : State → Bool
  | .completed | .failed | .uncertain => false
  | _ => true

def State.rank : State → Nat
  | .pending => 0
  | .sent => 1
  | .accepted => 2
  | .queued => 3
  | .started => 4
  | .completed | .failed | .uncertain => 5

structure Row where
  commandId : String
  sessionId : String
  runnerId : String
  payloadJson : String
  payloadSha256 : String
  state : State
  revision : Nat
  attemptCount : Nat
  nextAttemptAt : Option Int
  expiresAt : Int
  error : Option String
  errorCode : Option String
  userEventSeq : Option Nat
  dismissedAt : Option Int
  createdAt : Int
  updatedAt : Int
  deriving DecidableEq, Repr

structure Attempt where
  requestId : Nat
  commandId : String
  runnerId : String
  sentAt : Int
  deriving DecidableEq, Repr

structure Store where
  rows : List Row
  attempts : List Attempt
  deriving DecidableEq, Repr

def Store.get (s : Store) (id : String) : Option Row := s.rows.find? (fun r => r.commandId == id)

def Store.modify (id : String) (f : Row → Row) (s : Store) : Store :=
  { s with rows := s.rows.map (fun r => if r.commandId = id then f r else r) }

def terminalRetentionMs : Int := 7 * 24 * 60 * 60000

def attemptRetentionLimit : Nat := 128

/-- What the outbox reads of a payload: its parse, the digest of that, and a plain prompt's session. -/
structure Payloads (γ : Type) where
  parse : String → Option γ
  digest : γ → String
  plainPrompt : γ → Option String

structure StageInput where
  commandId : String
  sessionId : String
  runnerId : String
  payloadJson : String
  payloadSha256 : String
  expiresAt : Int
  now : Int
  deriving DecidableEq, Repr

def stagedRow (input : StageInput) : Row where
  commandId := input.commandId
  sessionId := input.sessionId
  runnerId := input.runnerId
  payloadJson := input.payloadJson
  payloadSha256 := input.payloadSha256
  state := .pending
  revision := 0
  attemptCount := 0
  nextAttemptAt := some input.now
  expiresAt := input.expiresAt
  error := none
  errorCode := none
  userEventSeq := none
  dismissedAt := none
  createdAt := input.now
  updatedAt := input.now

def Store.insert (s : Store) (row : Row) : Store := { s with rows := s.rows ++ [row] }

section

variable {γ : Type} (P : Payloads γ)

def stageSessionPromptCommand (input : StageInput) (s : Store) : Except String Row × Store :=
  match P.parse input.payloadJson with
  | none => (.error "malformed JSON", s)
  | some _ =>
    match s.get input.commandId with
    | some existing =>
      if existing.sessionId ≠ input.sessionId ∨ existing.runnerId ≠ input.runnerId ∨ existing.payloadJson ≠ input.payloadJson ∨
          existing.payloadSha256 ≠ input.payloadSha256 then
        (.error "durable command identity is already bound to different content", s)
      else (.ok existing, s)
    | none => (.ok (stagedRow input), s.insert (stagedRow input))

/-- The class `[...]` of a GLOB pattern after its opening bracket: whether it holds the character, and the rest. -/
def globClass (c : Char) : Bool → Option Char → List Char → Option (Bool × List Char)
  | _, _, [] => none
  | seen, _, ']' :: p => some (seen, p)
  | seen, some low, '-' :: d :: p =>
    if d = ']' then some (seen || c == '-', p) else globClass c (seen || (decide (low ≤ c) && decide (c ≤ d))) none p
  | seen, _, d :: p => globClass c (seen || c == d) (some d) p

/-- `GLOB`: `*` for any text, `?` for any character, `[...]` and `[^...]` for a class, anything else for itself. -/
def globMatch : Nat → List Char → List Char → Bool
  | 0, _, _ => false
  | _ + 1, [], s => s.isEmpty
  | n + 1, '*' :: p, s =>
    globMatch n p s || (match s with
      | [] => false
      | _ :: s => globMatch n ('*' :: p) s)
  | n + 1, '?' :: p, s => match s with
    | [] => false
    | _ :: s => globMatch n p s
  | n + 1, '[' :: p, s => match s with
    | [] => false
    | c :: s =>
      let (invert, p) := match p with
        | '^' :: p => (true, p)
        | p => (false, p)
      let (seen, p) := match p with
        | ']' :: p => (c == ']', p)
        | p => (false, p)
      match globClass c seen none p with
      | none => false
      | some (seen, p) => (seen != invert) && globMatch n p s
  | n + 1, d :: p, s => match s with
    | [] => false
    | c :: s => c == d && globMatch n p s

def glob (pattern text : String) : Bool :=
  globMatch (pattern.toList.length + text.toList.length + 1) pattern.toList text.toList

/-- `/\.retry-(\d+)$/`: what stands before it, and the number. -/
def splitRetry (id : String) : Option (String × Nat) :=
  let back := id.toList.reverse
  let digits := back.takeWhile Char.isDigit
  let rest := back.dropWhile Char.isDigit
  if digits ≠ [] ∧ rest.take 7 = "-yrter.".toList then
    some (String.ofList (rest.drop 7).reverse, Nat.ofDigitChars 10 digits.reverse 0)
  else none

/-- `replace(/(?:\.retry-\d+)+$/u, "")` -/
def stripRetries : Nat → String → String
  | 0, id => id
  | n + 1, id => match splitRetry id with
    | none => id
    | some (base, _) => stripRetries n base

def baseOf (id : String) : String := stripRetries id.toList.length id

def retryId (base : String) (retry : Nat) : String := base ++ (".retry-" ++ toString retry)

def chainMatch (base id : String) : Bool := id == base || glob (base ++ ".retry-*") id

def latestOf (base : String) (s : Store) : Option Row := (s.rows.filter (fun r => chainMatch base r.commandId)).getLast?

/-! ## Ending a command -/

inductive DismissResult
  | dismissed | notFound | notTerminal
  deriving DecidableEq, Repr

def Store.open (s : Store) (sessionId commandId : String) : Option Row :=
  s.rows.find? (fun r => r.sessionId == sessionId && r.commandId == commandId && r.dismissedAt.isNone)

def dismissRow (now : Int) (row : Row) : Row :=
  { row with
    dismissedAt := some now, payloadJson := "null", expiresAt := min row.expiresAt (now + terminalRetentionMs), updatedAt := now }

def dismissTerminalSessionPromptCommand (sessionId commandId : String) (now : Int) (s : Store) : DismissResult × Store :=
  match s.open sessionId commandId with
  | none => (.notFound, s)
  | some row =>
    if row.state ≠ .failed ∧ row.state ≠ .uncertain then (.notTerminal, s)
    else (.dismissed, s.modify commandId (dismissRow now))

structure RetryInput where
  baseCommandId : String
  dismissCommandId : Option String
  sessionId : String
  runnerId : String
  payloadJson : String
  payloadSha256 : String
  expiresAt : Int
  now : Int
  deriving DecidableEq, Repr

inductive Disposition
  | deliverable | terminal
  deriving DecidableEq, Repr

/-- `dismissPredecessor` -/
def dismissPredecessor (input : RetryInput) (s : Store) : Except String Store :=
  match input.dismissCommandId with
  | none => .ok s
  | some "" => .ok s
  | some id =>
    match dismissTerminalSessionPromptCommand input.sessionId id input.now s with
    | (.dismissed, s) => .ok s
    | _ => .error "retry predecessor changed before its replacement was committed"

def retryRow (input : RetryInput) (latest : Option Row) : Row :=
  let retry := match latest with
    | none => 0
    | some row => ((splitRetry row.commandId).map Prod.snd).getD 0 + 1
  let commandId := if retry = 0 then input.baseCommandId else retryId input.baseCommandId retry
  stagedRow ⟨commandId, input.sessionId, input.runnerId, input.payloadJson, input.payloadSha256, input.expiresAt, input.now⟩

def publishRetry (input : RetryInput) (latest : Option Row) (s : Store) : Except String (Row × Disposition) × Store :=
  let row := retryRow input latest
  if (s.get row.commandId).isSome then (.error "UNIQUE constraint failed: session_prompt_commands.command_id", s)
  else match dismissPredecessor input (s.insert row) with
    | .ok s => (.ok (row, .deliverable), s)
    | .error e => (.error e, s)

/-- `stageRetriableSessionPromptCommand`: a transaction, so an error leaves the store. -/
def stageRetriableSessionPromptCommand (input : RetryInput) (s : Store) : Except String (Row × Disposition) × Store :=
  match P.parse input.payloadJson with
  | none => (.error "malformed JSON", s)
  | some _ =>
    match latestOf input.baseCommandId s with
    | none => publishRetry input none s
    | some latest =>
      if latest.sessionId ≠ input.sessionId ∨ latest.runnerId ≠ input.runnerId then
        (.error "durable command identity is already bound to a different session", s)
      else if latest.state.active then
        if latest.payloadJson ≠ input.payloadJson ∨ latest.payloadSha256 ≠ input.payloadSha256 then
          (.error "durable command identity is already bound to different content", s)
        else match dismissPredecessor input s with
          | .ok s => (.ok (latest, .deliverable), s)
          | .error e => (.error e, s)
      else if latest.state ≠ .failed ∨ latest.userEventSeq ≠ none then (.ok (latest, .terminal), s)
      else publishRetry input (some latest) s

/-- `retryableKnownUndeliveredPrompt`: the row, if it is a plain prompt known to be undelivered. -/
def retryableKnownUndeliveredPrompt (sessionId commandId : String) (s : Store) : Option Row :=
  (s.get commandId).bind (fun prior =>
    if prior.sessionId = sessionId ∧ prior.dismissedAt = none ∧ prior.state = .failed ∧
        (prior.errorCode = some "PROVIDER_AUTHENTICATION_REQUIRED" ∨ prior.errorCode = some "WORKTREE_RECOVERY_REQUIRED") ∧
        prior.userEventSeq = none ∧ prior.payloadJson ≠ "null" then
      (P.parse prior.payloadJson).bind (fun command =>
        if P.plainPrompt command = some sessionId ∧ P.digest command = prior.payloadSha256 then some prior else none)
    else none)

def receiptHorizonMs : Int := 30 * 24 * 60 * 60000

def explicitRetry (sessionId commandId : String) (now : Int) (prior : Row) : RetryInput where
  baseCommandId := baseOf commandId
  dismissCommandId := some commandId
  sessionId := sessionId
  runnerId := prior.runnerId
  payloadJson := prior.payloadJson
  payloadSha256 := prior.payloadSha256
  expiresAt := now + receiptHorizonMs
  now := now

/-- `retryKnownUndeliveredFailure`, up to the flush that follows it. -/
def retryKnownUndeliveredFailure (sessionId commandId : String) (now : Int) (s : Store) : Store :=
  match retryableKnownUndeliveredPrompt P sessionId commandId s with
  | none => s
  | some prior => (stageRetriableSessionPromptCommand P (explicitRetry sessionId commandId now prior) s).2

structure Receipt where
  commandId : String
  runnerId : String
  sessionId : String
  state : State
  revision : Nat
  requestId : Option Nat
  error : Option String
  code : Option String
  userEventSeq : Option Nat
  deriving DecidableEq, Repr

def refinesUncertain (row : Row) (state : State) (revision : Nat) : Bool :=
  row.state == .uncertain && (state == .completed || state == .failed) && decide (row.revision ≤ revision)

def receiptTaken (row : Row) (state : State) (revision : Nat) : Bool :=
  !((!row.state.active && !refinesUncertain row state revision) || decide (revision < row.revision) ||
      (revision == row.revision && state == row.state)) &&
    !((revision == row.revision && state.active) || (state.active && decide (state.rank < row.state.rank)))

def takeReceipt (r : Receipt) (now : Int) (row : Row) : Row :=
  { row with
    state := r.state, revision := r.revision, error := r.error, errorCode := r.code,
    userEventSeq := r.userEventSeq.or row.userEventSeq,
    nextAttemptAt := if r.state.active then some (now + 30000) else none,
    payloadJson := if r.state = .completed then "null" else row.payloadJson,
    expiresAt :=
      if r.state.active then row.expiresAt
      else if refinesUncertain row r.state r.revision then min row.expiresAt (now + terminalRetentionMs)
      else now + terminalRetentionMs,
    updatedAt := now }

/-- The receipt is for this row, of its runner and session, and of an attempt still recorded if it names one. -/
def heard (s : Store) (r : Receipt) (row : Row) : Bool :=
  row.runnerId == r.runnerId && row.sessionId == r.sessionId &&
    r.requestId.all (fun q => s.attempts.any (fun a => a.requestId == q && a.commandId == r.commandId && a.runnerId == r.runnerId))

def recordSessionPromptCommandReceipt (r : Receipt) (now : Int) (s : Store) : Option (Row × Bool) × Store :=
  match s.get r.commandId with
  | none => (none, s)
  | some row =>
    if heard s r row then
      if receiptTaken row r.state r.revision then (some (takeReceipt r now row, true), s.modify r.commandId (takeReceipt r now))
      else (some (row, false), s)
    else (none, s)

/-- `receipt`, for a message that `validReceipt` accepts: the states of a runner only. -/
def receipt (r : Receipt) (now : Int) (s : Store) : Store :=
  if r.state ≠ .pending ∧ r.state ≠ .sent then (recordSessionPromptCommandReceipt r now s).2 else s

def deferSessionPromptCommand (commandId : String) (nextAttemptAt now : Int) (s : Store) : Store :=
  s.modify commandId (fun row =>
    if row.state.active then { row with nextAttemptAt := some nextAttemptAt, updatedAt := now } else row)

/-- The attempts of a command that retention keeps: the latest by time, then by rowid. -/
def retainedAttempts (commandId : String) (attempts : List Attempt) : List Nat :=
  (((attempts.filter (fun a => a.commandId == commandId)).reverse.insertionSort (fun a b => b.sentAt ≤ a.sentAt)).take
    attemptRetentionLimit).map Attempt.requestId

def recordAttempt (a : Attempt) (attempts : List Attempt) : List Attempt :=
  let attempts := attempts ++ [a]
  if (attempts.filter (fun b => b.commandId == a.commandId)).length ≤ attemptRetentionLimit then attempts
  else attempts.filter (fun b => b.commandId != a.commandId || (retainedAttempts a.commandId attempts).contains b.requestId)

def sentRow (now nextAttemptAt : Int) (row : Row) : Row :=
  { row with
    state := if row.state = .pending then .sent else row.state, attemptCount := row.attemptCount + 1,
    nextAttemptAt := some nextAttemptAt, updatedAt := now }

def markSessionPromptCommandSent (commandId : String) (requestId : Nat) (now nextAttemptAt : Int) (s : Store) : Store :=
  match s.get commandId with
  | none => s
  | some row =>
    if row.state.active = true ∧ (s.attempts.any (fun a => a.requestId == requestId)) = false then
      { s with attempts := recordAttempt ⟨requestId, commandId, row.runnerId, now⟩ s.attempts }.modify commandId
        (sentRow now nextAttemptAt)
    else s

structure Outlook where
  due : Bool
  online : Bool
  awaitsFirst : Bool
  retired : Bool
  campaignWaits : Bool
  supported : Bool
  /-- why a retired or unsupported command ends -/
  reason : String
  requestId : Nat
  deriving DecidableEq, Repr

def retryDelay (attempt : Nat) : Int := min 30000 (250 * 2 ^ min 7 (attempt - 1))

def ownReceipt (row : Row) (state : State) (error : String) : Receipt where
  commandId := row.commandId
  runnerId := row.runnerId
  sessionId := row.sessionId
  state := state
  revision := row.revision + 1
  requestId := none
  error := some error
  code := none
  userEventSeq := none

def payloadIntact (row : Row) : Bool :=
  match P.parse row.payloadJson with
  | none => false
  | some command => P.digest command == row.payloadSha256

def refused (row : Row) : State := if row.state = .pending then .failed else .uncertain

/-- What `flush` does with one row of its batch. -/
def flushRow (commandId : String) (o : Outlook) (now : Int) (s : Store) : Store :=
  match s.get commandId with
  | none => s
  | some row =>
    if row.state.active = true ∧ row.nextAttemptAt.any (fun t => decide (t ≤ now)) = true ∧ now < row.expiresAt ∧ o.due = true ∧
        o.online = true then
      if !payloadIntact P row then
        (recordSessionPromptCommandReceipt (ownReceipt row .failed (if (P.parse row.payloadJson).isNone
          then "stored durable prompt payload is malformed" else "stored durable prompt digest does not match")) now s).2
      else if o.awaitsFirst then deferSessionPromptCommand commandId (now + 10000) now s
      else if o.retired then
        (recordSessionPromptCommandReceipt (ownReceipt row (refused row) o.reason) now s).2
      else if o.campaignWaits then deferSessionPromptCommand commandId (now + 10000) now s
      else if !o.supported then
        (recordSessionPromptCommandReceipt (ownReceipt row (refused row) o.reason) now s).2
      else markSessionPromptCommandSent commandId o.requestId now (now + retryDelay (row.attemptCount + 1)) s
    else s

/-! ## The control plane's ends -/

def endRow (error : String) (code : Option String) (now : Int) (row : Row) : Row :=
  { row with
    state := if row.state = .pending then .failed else .uncertain, revision := row.revision + 1, error := some error,
    errorCode := code.or row.errorCode, nextAttemptAt := none, expiresAt := now + terminalRetentionMs, updatedAt := now }

def expireRow (now : Int) (row : Row) : Row :=
  endRow (if row.state = .pending then "durable prompt expired before runner acceptance"
    else "durable prompt exceeded its receipt horizon after possible runner acceptance") none now row

def batch (limit : Nat) (due : Row → Bool) (s : Store) : List String :=
  (((s.rows.filter due).insertionSort (fun a b => a.expiresAt < b.expiresAt ∨
    (a.expiresAt = b.expiresAt ∧ a.createdAt ≤ b.createdAt))).take limit).map Row.commandId

def expireSessionPromptCommands (now : Int) (s : Store) : Store :=
  let ids := batch 100 (fun r => r.state.active && decide (r.expiresAt ≤ now)) s
  { s with rows := s.rows.map (fun r => if ids.contains r.commandId then expireRow now r else r) }

/-- `cancelSessionPromptCommands`; `kept` are the commands it keeps, `resumes` those that carry a decision's resume. -/
def cancelSessionPromptCommands (sessionId reason : String) (now : Int) (kept resumes : List String) (s : Store) : Store :=
  { s with rows := s.rows.map (fun r =>
      if r.sessionId = sessionId ∧ r.state.active = true ∧ ¬kept.contains r.commandId then
        let ended := endRow reason (some "COMMAND_CANCELLED") now r
        if resumes.contains r.commandId ∧ r.state = .pending ∧ r.dismissedAt = none then dismissRow now ended else ended
      else r) }

inductive CancelResult
  | cancelled | notFound | deliveryStarted
  deriving DecidableEq, Repr

def cancelPendingSessionPromptCommand (sessionId commandId : String) (now : Int) (s : Store) : CancelResult × Store :=
  match s.open sessionId commandId with
  | none => (.notFound, s)
  | some row =>
    if row.state ≠ .pending then (.deliveryStarted, s)
    else (.cancelled, s.modify commandId (endRow "prompt canceled before runner delivery" (some "COMMAND_CANCELLED") now))

/-- The statement of `retireWorkflowDecisionResume` that stops a delivery. -/
def stopResumeDelivery (commandId : String) (now : Int) (s : Store) : Store :=
  s.modify commandId (fun row =>
    if row.state.active = true ∧ row.state ≠ .pending then
      endRow "automation approval expired after delivery may have begun" none now row
    else row)

def pruneSessionPromptCommands (now : Int) (limit : Nat) (protected' : List String) (s : Store) : Store :=
  let ids := batch (max 1 (min limit 10000))
    (fun r => !r.state.active && decide (r.expiresAt ≤ now) && !protected'.contains r.commandId) s
  { rows := s.rows.filter (fun r => !ids.contains r.commandId)
    attempts := s.attempts.filter (fun a => !ids.contains a.commandId) }

inductive Op
  | stage (input : StageInput)
  | stageRetriable (input : RetryInput)
  | retry (sessionId commandId : String) (now : Int)
  | flush (commandId : String) (o : Outlook) (now : Int)
  | receipt (r : Receipt) (now : Int)
  | expire (now : Int)
  | cancelSession (sessionId reason : String) (now : Int) (kept resumes : List String)
  | cancelPending (sessionId commandId : String) (now : Int)
  | stopResume (commandId : String) (now : Int)
  | dismiss (sessionId commandId : String) (now : Int)
  | prune (now : Int) (limit : Nat) (kept : List String)
  deriving DecidableEq, Repr

def step (s : Store) : Op → Store
  | .stage input => (stageSessionPromptCommand P input s).2
  | .stageRetriable input => (stageRetriableSessionPromptCommand P input s).2
  | .retry sessionId commandId now => retryKnownUndeliveredFailure P sessionId commandId now s
  | .flush commandId o now => flushRow P commandId o now s
  | .receipt r now => receipt r now s
  | .expire now => expireSessionPromptCommands now s
  | .cancelSession sessionId reason now kept resumes => cancelSessionPromptCommands sessionId reason now kept resumes s
  | .cancelPending sessionId commandId now => (cancelPendingSessionPromptCommand sessionId commandId now s).2
  | .stopResume commandId now => stopResumeDelivery commandId now s
  | .dismiss sessionId commandId now => (dismissTerminalSessionPromptCommand sessionId commandId now s).2
  | .prune now limit kept => pruneSessionPromptCommands now limit kept s

def run (s : Store) (ops : List Op) : Store := ops.foldl (step P) s

theorem run_append (s : Store) (ops more : List Op) : run P s (ops ++ more) = run P (run P s ops) more := List.foldl_append

def Store.empty : Store := ⟨[], []⟩

end

end Wollipog.Prompts

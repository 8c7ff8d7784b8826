import Wollipog.Reviews.Contract
/-!
# Store — review sessions

The owning runner reports its round, its output and its verdict; a valid verdict is settled again from the stored head
and scope, and an equivalence from the run of the requester.
-/
namespace Wollipog.Reviews

open Json

inductive ReviewSessionState
  | requested | running | completed | failed | cancelled
  deriving DecidableEq

def ReviewSessionState.terminal : ReviewSessionState → Bool
  | .completed | .failed | .cancelled => true
  | _ => false

inductive SessionReviewHarness
  | codex | claudeCode
  deriving DecidableEq

inductive ReviewRoundMode
  | full | delta | rebase | equivalent
  deriving DecidableEq

inductive Vote
  | upvote | downvote | invalid
  deriving DecidableEq

inductive ReviewFailureClass
  | runnerConfig | snapshot | sandbox | transport | timeout | malformedOutput | toolPolicy | evidenceContract
  deriving DecidableEq

structure ReviewAttemptRound where
  epoch : ℕ
  round : ℕ
  attempt : ℕ
  mode : ReviewRoundMode
  baseSha : Text
  scopeFiles : List Text
  since : Option Text
  rebasedFrom : Option (Text × Text)
  baseMerge : Bool
  equivalentTo : Option Text

structure ReviewAttemptVerdictView where
  valid : Bool
  consumed : Bool
  effectiveVote : Option Vote
  failureClass : Option ReviewFailureClass
  validationErrors : List Text

structure ReviewSessionAdmission where
  observedAt : ℕ
  /-- Session and kind. -/
  unsandboxedSessions : List (Text × Text)

structure Row where
  reviewSessionId : Text
  requesterSessionId : Text
  runnerId : Text
  repository : Text
  prNumber : ℕ
  headSha : Text
  reviewer : SessionReviewHarness
  state : ReviewSessionState
  output : Option Text
  outputTruncated : Bool
  reason : Option Text
  cancelRequested : Bool
  createdAt : ℕ
  updatedAt : ℕ
  roundBudget : ℕ
  round : Option ReviewAttemptRound
  verdict : Option ReviewAttemptVerdictView
  findings : List Value
  admission : Option ReviewSessionAdmission
  continuationHeld : Bool
  continuationUpdatedAt : Option ℕ

def Row.active (r : Row) : Bool := !r.state.terminal

/-! ## What a runner sends -/

def natOf : Number → Option ℕ
  | .zero => some 0
  | .signed false d =>
    if (d.digits.length : Int) ≤ d.point then some (natValue d.digits * 10 ^ (d.point - d.digits.length).toNat) else none
  | .signed true _ => none

def maxSafeInteger : ℕ := 9007199254740991

def isCount (value : Option Value) (max : ℕ) : Option ℕ :=
  match value with
  | some (.number n) => (natOf n).filter (fun k => decide (k ≤ maxSafeInteger) && decide (1 ≤ k) && decide (k ≤ max))
  | _ => none

def isHex (c : CodeUnit) : Bool := (decide (48 ≤ c.val) && decide (c.val ≤ 57)) || (decide (97 ≤ c.val) && decide (c.val ≤ 102))

def shaOf : Option Value → Option Text
  | some (.string s) => if s.length = 40 ∧ s.all isHex then some s else none
  | _ => none

def pathOf : Value → Option Text
  | .string s => if s ≠ [] ∧ s.length ≤ 4096 then some s else none
  | _ => none

def modeOf : Option Value → Option ReviewRoundMode
  | some (.string s) =>
    if s = lit "full" then some .full
    else if s = lit "delta" then some .delta
    else if s = lit "rebase" then some .rebase
    else if s = lit "equivalent" then some .equivalent else none
  | _ => none

def isTrue : Option Value → Bool
  | some (.bool b) => b
  | _ => false

def MAX_SCOPE_FILES : ℕ := 5000

def scopeOf : Option Value → Option (List Text)
  | some (.array l) => if l.length ≤ MAX_SCOPE_FILES then l.mapM pathOf else none
  | _ => none

section Round

variable (mode : ReviewRoundMode) (members : List (Text × Option Value))

def sinceOf : Option (Option Text) :=
  if mode = .delta then (shaOf (member members (lit "since"))).map some else some none

def rebasedFromOf : Option (Option (Text × Text)) :=
  if mode = .rebase then
    match member members (lit "rebasedFrom") with
    | some (.object pair) =>
      match shaOf (member pair (lit "baseSha")), shaOf (member pair (lit "headSha")) with
      | some base, some head => some (some (base, head))
      | _, _ => none
    | _ => none
  else some none

def equivalentToOf (scopeFiles : List Text) : Option (Option Text) :=
  if mode = .equivalent then
    if isTrue (member members (lit "baseMerge")) && scopeFiles.isEmpty then
      (shaOf (member members (lit "equivalentTo"))).map some
    else none
  else some none

def baseMergeOf : Option Bool :=
  if (member members (lit "baseMerge")).isSome &&
      (!isTrue (member members (lit "baseMerge")) || (mode != .delta && mode != .equivalent)) then none
  else some (isTrue (member members (lit "baseMerge")))

end Round

def parsedRound : Value → Option ReviewAttemptRound
  | .object members => do
    let epoch ← isCount (member members (lit "epoch")) 10000
    let round ← isCount (member members (lit "round")) 1000
    let attempt ← isCount (member members (lit "attempt")) 1000
    let mode ← modeOf (member members (lit "mode"))
    let baseSha ← shaOf (member members (lit "baseSha"))
    let scopeFiles ← scopeOf (member members (lit "scopeFiles"))
    let since ← sinceOf mode members
    let rebasedFrom ← rebasedFromOf mode members
    let equivalentTo ← equivalentToOf mode members scopeFiles
    let baseMerge ← baseMergeOf mode members
    some ⟨epoch, round, attempt, mode, baseSha, scopeFiles, since, rebasedFrom, baseMerge, equivalentTo⟩
  | _ => none

def voteOf : Option Value → Option (Option Vote)
  | some .null => some none
  | some (.string s) =>
    if s = lit "UPVOTE" then some (some .upvote)
    else if s = lit "DOWNVOTE" then some (some .downvote)
    else if s = lit "INVALID" then some (some .invalid) else none
  | _ => none

/-- `FAILURE_CLASSES` -/
def failureClasses : List (Text × ReviewFailureClass) :=
  [(lit "runner_config", .runnerConfig), (lit "snapshot", .snapshot), (lit "sandbox", .sandbox), (lit "transport", .transport),
    (lit "timeout", .timeout), (lit "malformed_output", .malformedOutput), (lit "tool_policy", .toolPolicy),
    (lit "evidence_contract", .evidenceContract)]

def failureClassOf : Option Value → Option (Option ReviewFailureClass)
  | some .null => some none
  | some (.string s) => (failureClasses.lookup s).map some
  | _ => none

def textOf : Value → Option Text
  | .string s => some s
  | _ => none

def boundedErrors (errors : List Text) : List Text := (errors.take 8).map (fun error => error.take 300)

def parsedVerdict : Value → Option ReviewAttemptVerdictView
  | .object members =>
    match member members (lit "valid"), member members (lit "consumed"), voteOf (member members (lit "effectiveVote")),
      failureClassOf (member members (lit "failureClass")), member members (lit "validationErrors") with
    | some (.bool valid), some (.bool consumed), some effectiveVote, some failureClass, some (.array errors) =>
      (errors.mapM textOf).map (fun texts => ⟨valid, consumed, effectiveVote, failureClass, boundedErrors texts⟩)
    | _, _, _, _, _ => none
  | _ => none

def isIdUnit (c : CodeUnit) : Bool :=
  (decide (48 ≤ c.val) && decide (c.val ≤ 57)) || (decide (65 ≤ c.val) && decide (c.val ≤ 90)) ||
    (decide (97 ≤ c.val) && decide (c.val ≤ 122)) || c.val == 95 || c.val == 45

def admittedSession : Value → Option (Text × Text)
  | .object members =>
    match member members (lit "sessionId"), member members (lit "kind") with
    | some (.string sessionId), some (.string kind) =>
      if sessionId ≠ [] ∧ sessionId.length ≤ 128 ∧ sessionId.all isIdUnit ∧ (kind = lit "provider" ∨ kind = lit "agent_tui") then
        some (sessionId, kind)
      else none
    | _, _ => none
  | _ => none

def parsedAdmission : Option Value → Option ReviewSessionAdmission
  | some (.object members) =>
    match member members (lit "observedAt"), member members (lit "unsandboxedSessions") with
    | some (.number n), some (.array l) => do
      let observedAt ← (natOf n).filter (fun k => decide (k ≤ maxSafeInteger))
      let sessions ← l.mapM admittedSession
      some ⟨observedAt, sessions⟩
    | _, _ => none
  | _ => none

/-- `ReviewSessionUpdate`, untrusted; a state outside the enumeration is `none`. -/
structure ReviewSessionUpdate where
  sessionId : Text
  state : Option ReviewSessionState
  output : Option Value
  outputTruncated : Option Value
  reason : Option Value
  round : Option Value
  verdict : Option Value
  admission : Option Value

def REVIEW_SESSION_REASONS : List Text :=
  [lit "the configured reviewer is unavailable or belongs to the implementer's model family without explicit permission",
    lit "the review must cover the session's own native managed worktree",
    lit "resume this session once so the runner can verify its automatic worktree before requesting a review",
    lit "the automatic worktree is no longer registered on this session's expected branch; restore it before requesting a review",
    lit "the pull request is not this session's open, same-repository pull request",
    lit "the requested head is not the pull request's pushed head", lit "the review snapshot could not be prepared",
    lit "the runner cannot launch this reviewer",
    lit "the reviewer command is not trusted: install it where sessions cannot write, outside provider homes and caches",
    lit "the runner is missing a trusted git or gh for reviews", lit "the runner is missing a trusted gh for GitHub reviews",
    lit "the runner is missing a trusted glab for GitLab reviews", lit "the runner's glab is not configured for this GitLab host",
    lit "the review session could not be launched", lit "the review was cancelled", lit "the review ended without a result",
    lit "the review session ended when its runner restarted", lit "the review session's runner no longer supports review sessions",
    lit "this head already has an upvote", lit "the head has not changed since the last valid round",
    lit "this pull request has reached its review round limit", lit "this review round has used its attempts",
    lit "the reviewer timed out", lit "the recorded equivalence no longer matches the review run"]

def sanitizedReviewSessionReason : Option Value → Text
  | some (.string s) =>
    if REVIEW_SESSION_REASONS.contains s then s else lit "the review could not be completed; see the runner log"
  | _ => lit "the review could not be completed; see the runner log"

/-! ## Verdicts -/

def isSurrogate (c : CodeUnit) : Bool := isLead c || isTrail c

def unitBytes (c : CodeUnit) : ℕ := if c.val < 0x80 then 1 else if c.val < 0x800 then 2 else 3

def utf8Prefix (limit : ℕ) : Text → Text
  | [] => []
  | [c] => if unitBytes c ≤ limit then [if isSurrogate c then 0xfffd else c] else []
  | c :: d :: rest =>
    if isLead c && isTrail d then if 4 ≤ limit then c :: d :: utf8Prefix (limit - 4) rest else []
    else if unitBytes c ≤ limit then (if isSurrogate c then 0xfffd else c) :: utf8Prefix (limit - unitBytes c) (d :: rest) else []

def utf8Length : Text → ℕ
  | [] => 0
  | [c] => unitBytes c
  | c :: d :: rest => if isLead c && isTrail d then 4 + utf8Length rest else unitBytes c + utf8Length (d :: rest)

def boundedText (text : Text) (limit : ℕ) : Text × Bool :=
  if utf8Length text ≤ limit then (text, false)
  else (((utf8Prefix limit text).reverse.dropWhile (fun c => c == 0xfffd)).reverse, true)

def REVIEW_SESSION_OUTPUT_LIMIT_BYTES : ℕ := 256 * 1024

def REVIEW_EQUIVALENCE_OUTPUT : Text :=
  lit "No reviewer ran: the runner proved this head only merges the moved base branch into an upvoted head and leaves the pull request's own diff unchanged, so that upvote carries over."

def invalidVerdict (failureClass : ReviewFailureClass) (errors : List Text) : ReviewAttemptVerdictView :=
  ⟨false, true, some .invalid, some failureClass, boundedErrors errors⟩

def reportContext (headSha : Text) (scopeFiles : List Text) : ReviewReportContext := ⟨headSha, scopeFiles, [], none⟩

def reportVote (report : Value) : Vote := if Value.text (memberOf report "vote") = lit "UPVOTE" then .upvote else .downvote

def settledVerdict (toDouble : Number → Number) (row : Row) (state : ReviewSessionState) (round : Option ReviewAttemptRound)
    (verdict : Option ReviewAttemptVerdictView) (output : Option (Text × Bool)) : Option ReviewAttemptVerdictView × List Value :=
  match verdict with
  | none => (none, [])
  | some verdict =>
    if !verdict.valid then (some { verdict with valid := false }, [])
    else
      match output, round with
      | some (text, false), some round =>
        if state ≠ .completed then
          (some (invalidVerdict .evidenceContract [lit "the report could not be validated by the control plane"]), [])
        else
          let report := (parse toDouble text).getD .null
          let errors := validateReviewReport (reportContext row.headSha round.scopeFiles) report
          if !errors.isEmpty then (some (invalidVerdict .evidenceContract errors), [])
          else (some ⟨true, true, some (reportVote report), none, []⟩, Value.items (memberOf report "findings"))
      | _, _ => (some (invalidVerdict .evidenceContract [lit "the report could not be validated by the control plane"]), [])

/-- `COLLATE NOCASE` -/
def nocase (s : Text) : Text := s.map (fun c => if 65 ≤ c.val ∧ c.val ≤ 90 then c + 32 else c)

def sameRun (requesterSessionId repository : Text) (prNumber : ℕ) (r : Row) : Bool :=
  r.requesterSessionId == requesterSessionId && nocase r.repository == nocase repository && r.prNumber == prNumber

def validVote (r : Row) : Option Vote :=
  match r.verdict with
  | some ⟨true, _, some .upvote, _, _⟩ => some .upvote
  | some ⟨true, _, some .downvote, _, _⟩ => some .downvote
  | _ => none

def epochOf (r : Row) : ℕ := (r.round.map ReviewAttemptRound.epoch).getD 0

/-- What the checks read of the history of a run: its current epoch, and the last valid attempt in it. -/
structure ReviewRunHistory where
  epoch : ℕ
  lastValid : Option Row

def history (rows : List Row) (requesterSessionId repository : Text) (prNumber : ℕ) : ReviewRunHistory :=
  let attempts := rows.filter (fun r => sameRun requesterSessionId repository prNumber r && r.round.isSome)
  let epoch := (attempts.map epochOf).foldr max 0
  { epoch
    lastValid := ((attempts.filter (fun r => epochOf r == epoch)).filter (fun r => (validVote r).isSome)).getLast? }

def checkedRound (rows : List Row) (row : Row) : Option ReviewAttemptRound → Option ReviewAttemptRound
  | none => none
  | some round =>
    if !round.baseMerge then some round
    else
      let run := history rows row.requesterSessionId row.repository row.prNumber
      let reference := if round.mode = .equivalent then round.equivalentTo else round.since
      match run.lastValid with
      | some last =>
        if round.epoch = run.epoch ∧ reference = some last.headSha ∧ some row.headSha ≠ reference ∧
            (round.mode ≠ .equivalent ∨ validVote last = some .upvote) then some round
        else if round.mode = .equivalent then none else some { round with baseMerge := false }
      | none => if round.mode = .equivalent then none else some { round with baseMerge := false }

/-- The head carries the upvote of the head it is equivalent to; anything unproven fails without a round. -/
def acceptEquivalence (rows : List Row) (row : Row) (round : Option ReviewAttemptRound) (state : ReviewSessionState) (now : ℕ) : Row :=
  let run := history rows row.requesterSessionId row.repository row.prNumber
  let proven := if state = .completed ∧ round.any (fun r => r.mode == .equivalent) then
    run.lastValid.filter (fun last => validVote last == some .upvote) else none
  match proven with
  | some last =>
    { row with
      state := .completed, output := some REVIEW_EQUIVALENCE_OUTPUT, outputTruncated := false, reason := none, round
      verdict := some ⟨true, false, some .upvote, none, []⟩
      findings := last.findings, continuationHeld := true, continuationUpdatedAt := some now, updatedAt := now }
  | none =>
    { row with
      state := .failed, output := none, outputTruncated := false
      reason := some (sanitizedReviewSessionReason (some (.string (lit "the recorded equivalence no longer matches the review run"))))
      round := none, verdict := none, findings := []
      continuationHeld := true, continuationUpdatedAt := some now, updatedAt := now }

/-! ## The operations -/

structure NewReviewSession where
  roundBudget : Option ℕ
  reviewSessionId : Text
  requesterSessionId : Text
  runnerId : Text
  repository : Text
  prNumber : ℕ
  headSha : Text
  reviewer : SessionReviewHarness

def REVIEW_ROUND_BUDGET : ℕ := 4

def record (input : NewReviewSession) (now : ℕ) (rows : List Row) : Option (List Row) :=
  if rows.any (fun r => r.reviewSessionId == input.reviewSessionId || (r.active && r.requesterSessionId == input.requesterSessionId)) then
    none
  else some (rows ++ [{
    reviewSessionId := input.reviewSessionId, requesterSessionId := input.requesterSessionId, runnerId := input.runnerId
    repository := input.repository, prNumber := input.prNumber, headSha := input.headSha, reviewer := input.reviewer
    state := .requested, output := none, outputTruncated := false, reason := none, cancelRequested := false
    createdAt := now, updatedAt := now, roundBudget := input.roundBudget.getD REVIEW_ROUND_BUDGET
    round := none, verdict := none, findings := [], admission := none, continuationHeld := false, continuationUpdatedAt := none }])

/-- An `UPDATE` of the rows of an id that meet a condition. -/
def update (id : Text) (test : Row → Bool) (f : Row → Row) (rows : List Row) : List Row :=
  rows.map (fun r => if r.reviewSessionId = id ∧ test r then f r else r)

def markRunning (reviewSessionId : Text) (now : ℕ) (rows : List Row) : List Row :=
  update reviewSessionId (fun r => r.state == .requested) (fun r => { r with state := .running, updatedAt := now }) rows

def requestCancel (reviewSessionId : Text) (now : ℕ) (rows : List Row) : List Row :=
  update reviewSessionId Row.active (fun r => { r with cancelRequested := true, updatedAt := now }) rows

def abandon (reviewSessionId reason : Text) (now : ℕ) (owed : Bool) (rows : List Row) : List Row :=
  update reviewSessionId Row.active (fun r => { r with
    state := .failed, reason := some (sanitizedReviewSessionReason (some (.string reason)))
    continuationHeld := owed, continuationUpdatedAt := some now, updatedAt := now }) rows

def admitted (row : Row) (u : ReviewSessionUpdate) (now : ℕ) : Row :=
  if row.reviewer = .codex ∧ row.admission.isNone then
    match parsedAdmission u.admission with
    | some admission => { row with admission := some admission, updatedAt := now }
    | none => row
  else row

def reportRunning (row : Row) (round : Option ReviewAttemptRound) (now : ℕ) : Row :=
  let planned := if row.round.isNone ∧ round.isSome then { row with round, updatedAt := now } else row
  if planned.state = .requested then { planned with state := .running, updatedAt := now } else planned

def reportEnded (toDouble : Number → Number) (row : Row) (round : Option ReviewAttemptRound) (u : ReviewSessionUpdate)
    (reported : ReviewSessionState) (now : ℕ) : Row :=
  let output := if reported = .completed then u.output.bind (fun v => (textOf v).map (fun s => boundedText s REVIEW_SESSION_OUTPUT_LIMIT_BYTES))
    else none
  let state := if reported = .completed ∧ (output.map Prod.fst).getD [] = [] then .failed else reported
  let reason := if state = .completed then none
    else some (sanitizedReviewSessionReason (if reported = .completed then some (.string (lit "the review ended without a result")) else u.reason))
  let truncated := state == .completed && (output.any Prod.snd || isTrue u.outputTruncated)
  let judged := u.verdict.map (fun v =>
    (parsedVerdict v).getD (invalidVerdict .evidenceContract [lit "the runner's verdict was malformed"]))
  let settled := settledVerdict toDouble row state round judged
    (if state = .completed then output.map (fun o => (o.1, truncated)) else none)
  { row with
    state, output := if state = .completed then output.map Prod.fst else none, outputTruncated := truncated, reason, round
    verdict := settled.1, findings := settled.2
    continuationHeld := state != .cancelled, continuationUpdatedAt := some now, updatedAt := now }

def reportRow (toDouble : Number → Number) (rows : List Row) (row : Row) (u : ReviewSessionUpdate) (reported : ReviewSessionState)
    (now : ℕ) : Row :=
  let claimed := u.round.bind parsedRound
  let round := row.round.or (checkedRound rows row claimed)
  let row := admitted row u now
  if claimed.any (fun r => r.mode == .equivalent) ∧ row.round.isNone then
    if reported = .running then row else acceptEquivalence rows row round reported now
  else if reported = .running then reportRunning row round now
  else reportEnded toDouble row round u reported now

def accept (toDouble : Number → Number) (runnerId : Text) (u : ReviewSessionUpdate) (now : ℕ) (rows : List Row) : List Row :=
  match rows.find? (fun r => r.reviewSessionId == u.sessionId), u.state with
  | some row, some reported =>
    if row.runnerId ≠ runnerId ∨ row.state.terminal ∨ reported = .requested then rows
    else update u.sessionId (fun _ => true) (fun _ => reportRow toDouble rows row u reported now) rows
  | _, _ => rows

inductive Event
  | record (input : NewReviewSession) (now : ℕ)
  | markRunning (reviewSessionId : Text) (now : ℕ)
  | requestCancel (reviewSessionId : Text) (now : ℕ)
  | accept (runnerId : Text) (u : ReviewSessionUpdate) (now : ℕ)
  | abandon (reviewSessionId reason : Text) (now : ℕ) (owed : Bool)

def step (toDouble : Number → Number) (rows : List Row) : Event → Option (List Row × List Unit)
  | .record input now => (record input now rows).map (fun t => (t, []))
  | .markRunning reviewSessionId now => some (markRunning reviewSessionId now rows, [])
  | .requestCancel reviewSessionId now => some (requestCancel reviewSessionId now rows, [])
  | .accept runnerId u now => some (accept toDouble runnerId u now rows, [])
  | .abandon reviewSessionId reason now owed => some (abandon reviewSessionId reason now owed rows, [])

structure MergeSnapshot where
  reviewSessionId : Option Text
  repository : Text
  pullRequest : ℕ
  headSha : Text

inductive MergeRefusal
  | missing | otherRequester | otherPullRequest
  | otherHead (headSha : Text)
  | noUpvote (state : ReviewSessionState)
  | superseded (reviewSessionId headSha : Text)

inductive MergeReviewEvidence
  | refused (reviewSessionId : Text) (refusal : MergeRefusal)
  | verified (reviewSessionId requesterSessionId repository : Text) (pullRequest : ℕ) (headSha : Text)
      (reviewer : SessionReviewHarness) (round : ReviewAttemptRound) (completedAt : ℕ)

def newerThan (id : Text) : List Row → List Row
  | [] => []
  | r :: rest => if r.reviewSessionId = id then rest else newerThan id rest

def supersedes (requesterSessionId : Text) (snapshot : MergeSnapshot) (r : Row) : Bool :=
  sameRun requesterSessionId snapshot.repository snapshot.pullRequest r && r.state == .completed && (validVote r).isSome

/-- `lower` is `toLowerCase`. -/
def mergeEvidence (lower : Text → Text) (rows : List Row) (requesterSessionId : Text) (snapshot : MergeSnapshot) :
    Option MergeReviewEvidence :=
  snapshot.reviewSessionId.map (fun id =>
    match rows.find? (fun r => r.reviewSessionId == id) with
    | none => .refused id .missing
    | some row =>
      if row.requesterSessionId ≠ requesterSessionId then .refused id .otherRequester
      else if lower row.repository ≠ lower snapshot.repository ∨ row.prNumber ≠ snapshot.pullRequest then .refused id .otherPullRequest
      else if row.headSha ≠ snapshot.headSha then .refused id (.otherHead row.headSha)
      else
        match row.round with
        | none => .refused id (.noUpvote row.state)
        | some round =>
          if row.state ≠ .completed ∨ validVote row ≠ some .upvote then .refused id (.noUpvote row.state)
          else
            match (newerThan id rows).reverse.find? (supersedes requesterSessionId snapshot) with
            | some newer => .refused id (.superseded newer.reviewSessionId newer.headSha)
            | none => .verified id requesterSessionId row.repository row.prNumber row.headSha row.reviewer round row.updatedAt)

end Wollipog.Reviews

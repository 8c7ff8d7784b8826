import Wollipog.Lib.JsonUtf8
import Wollipog.Lib.ReplaceUnits
import Wollipog.Publication.Store
/-!
# Journal — the phase record of an update

The attempt keeps its record in memory and writes all of it at every phase; a recovery reads the file, adds an event
and writes it back. Every write succeeds here.
-/
namespace Wollipog.Updater

open Json (Text Value Number stringify wholeNumber)
open Replace (Rule Way replace)
open Replace.Way (one star plus seqs oneOf opt edge empty atLeast moves_one moves_plus moves_lit moves_fail Moves)
open Reviews (lit)
open Publication (inClasses isLowerHex isHyphen)

def MAX_EVENTS : ℕ := 32
def MAX_DETAIL : ℕ := 300
def MAX_RECORD_BYTES : ℕ := 16 * 1024

/-- `NONCE_RE` -/
def isNonce (s : Text) : Bool :=
  inClasses (List.replicate 8 isLowerHex ++ [isHyphen] ++ List.replicate 4 isLowerHex ++ [isHyphen] ++
    List.replicate 4 isLowerHex ++ [isHyphen] ++ List.replicate 4 isLowerHex ++ [isHyphen] ++ List.replicate 12 isLowerHex) s

abbrev Nonce := { s : Text // isNonce s = true }

def REDACTED : List Char := "[redacted]".toList

/-- A word with the flags `iu`: the long s and the Kelvin sign are letters of it too. -/
def wordI (s : String) : Way := seqs (s.toList.map (fun d => one (fun c => Regex.fold c == d)))

def credential : Rule where
  lead := edge
  body := oneOf [seqs [Way.lit "gh", one (fun c => "pousr".toList.contains c), Way.lit "_", atLeast 20 (one Char.isAlphanum)],
    seqs [Way.lit "github_pat_", atLeast 20 (one Regex.isWord)],
    seqs [Way.lit "wollipog", opt (one Char.isLower), Way.lit "_", atLeast 20 (one (fun c => Regex.isWord c || c == '-'))]]
  tail := edge
  moves := ((moves_lit rfl).seq_left _).alt (((moves_lit rfl).seq_left _).alt (((moves_lit rfl).seq_left _).alt moves_fail))
  marker _ := REDACTED

def assignment : Rule where
  lead := seqs [oneOf [wordI "authorization", wordI "token", wordI "password", wordI "secret"], star (one Js.isSpace),
    one (fun c => c == ':' || c == '='), star (one Js.isSpace)]
  body := plus (one (fun c => !Js.isSpace c))
  tail := empty
  moves := moves_plus (moves_one _)
  marker _ := REDACTED

def controls : Rule where
  lead := empty
  body := plus (one (fun c => decide (c.toNat < 0x20) || c.toNat == 0x7f))
  tail := empty
  moves := moves_plus (moves_one _)
  marker _ := [' ']

def redactDetail (text : Text) : Text := (replace controls (replace assignment (replace credential text))).take MAX_DETAIL

theorem length_redactDetail (text : Text) : (redactDetail text).length ≤ MAX_DETAIL := List.length_take_le _ _

/-! ## Records -/

inductive JournalPhase
  | reserved | staged | installing | installed | verified | rolledBack | failed | cleanupFailed | cleaned | recovered
deriving DecidableEq

def JournalPhase.text : JournalPhase → Text
  | .reserved => lit "reserved"
  | .staged => lit "staged"
  | .installing => lit "installing"
  | .installed => lit "installed"
  | .verified => lit "verified"
  | .rolledBack => lit "rolled-back"
  | .failed => lit "failed"
  | .cleanupFailed => lit "cleanup-failed"
  | .cleaned => lit "cleaned"
  | .recovered => lit "recovered"

def PHASES : List JournalPhase :=
  [.reserved, .staged, .installing, .installed, .verified, .rolledBack, .failed, .cleanupFailed, .cleaned, .recovered]

structure JournalEvent where
  phase : JournalPhase
  at_ : Text
  detail : Option Text
deriving DecidableEq

inductive Mode
  | user | system

def Mode.text : Mode → Text
  | .user => lit "user"
  | .system => lit "system"

def isSafeInteger (n : Number) : Bool := n.value.den == 1 && decide (n.value.num.natAbs < 2 ^ 53)

structure ProcessIdentity where
  pid : Number
  startTime : Text
  bootId : Text
  safe : isSafeInteger pid = true

structure JournalHeader where
  nonce : Nonce
  tag : Text
  mode : Mode
  process : Option ProcessIdentity

structure JournalRecord extends JournalHeader where
  events : List JournalEvent

def JournalEvent.members (e : JournalEvent) : List (Text × Option Value) :=
  [(lit "phase", some (.string e.phase.text)), (lit "at", some (.string e.at_)), (lit "detail", e.detail.map .string)]

def ProcessIdentity.members (p : ProcessIdentity) : List (Text × Option Value) :=
  [(lit "pid", some (.number p.pid)), (lit "startTime", some (.string p.startTime)), (lit "bootId", some (.string p.bootId))]

def JournalRecord.members (r : JournalRecord) : List (Text × Option Value) :=
  [(lit "schema", some (.number (wholeNumber 1))), (lit "nonce", some (.string r.nonce.1)), (lit "tag", some (.string r.tag)),
    (lit "mode", some (.string r.mode.text)), (lit "process", some (r.process.elim .null (fun p => .object p.members))),
    (lit "events", some (.array (r.events.map (fun e => .object e.members))))]

def encode (r : JournalRecord) : List ℕ := Utf8.encode (stringify (.object r.members) ++ lit "\n")

/-! ## Reading -/

inductive RecordError
  | exceeds | incomplete
  /-- What the engine throws: no JSON, or a member of null. -/
  | engine
  | schema | process

def readString : Option Value → Option Text
  | some (.string s) => some s
  | _ => none

def readEvent : Value → Option JournalEvent
  | .object m => do
    let phase ← (readString (Json.get m (lit "phase"))).bind (fun s => PHASES.find? (fun p => p.text == s))
    let at_ ← readString (Json.get m (lit "at"))
    match Json.get m (lit "detail") with
    | none => some ⟨phase, at_, none⟩
    | some (.string detail) => some ⟨phase, at_, some detail⟩
    | some _ => none
  | _ => none

def readEvents : Option Value → Option (List JournalEvent)
  | some (.array l) => if l.length ≤ MAX_EVENTS then l.mapM readEvent else none
  | _ => none

def readMode (v : Option Value) : Option Mode := (readString v).bind (fun s => [Mode.user, .system].find? (fun m => m.text == s))

def readProcess : Option Value → Option (Option ProcessIdentity)
  | some .null => some none
  | some (.object m) => do
    let startTime ← readString (Json.get m (lit "startTime"))
    let bootId ← readString (Json.get m (lit "bootId"))
    match Json.get m (lit "pid") with
    | some (.number pid) => if h : isSafeInteger pid = true then some (some ⟨pid, startTime, bootId, h⟩) else none
    | _ => none
  | _ => none

def isSchema : Option Value → Bool
  | some (.number n) => n == wholeNumber 1
  | _ => false

def readRecord (nonce : Nonce) (m : List (Text × Option Value)) : Except RecordError JournalRecord :=
  if isSchema (Json.get m (lit "schema")) && readString (Json.get m (lit "nonce")) == some nonce.1 then
    match readString (Json.get m (lit "tag")), readMode (Json.get m (lit "mode")), readEvents (Json.get m (lit "events")) with
    | some tag, some mode, some events =>
      match readProcess (Json.get m (lit "process")) with
      | some process => .ok ⟨⟨nonce, tag, mode, process⟩, events⟩
      | none => .error .process
    | _, _, _ => .error .schema
  else .error .schema

def parseRecord (bytes : List ℕ) (nonce : Nonce) : Except RecordError JournalRecord :=
  if bytes.getLast? = some 0x0a then
    match Json.parse id (Utf8.decode bytes) with
    | some (.object m) => readRecord nonce m
    | none | some .null => .error .engine
    | some _ => .error .schema
  else .error .incomplete

inductive Unrecorded
  | noNonce | noRecord
  | unreadable (error : RecordError)

abbrev JournalRead := Except Unrecorded JournalRecord

def readJournal (nonce : Option Text) (file : Option (List ℕ)) : JournalRead :=
  match nonce with
  | none => .error .noNonce
  | some nonce =>
    if h : isNonce nonce = true then
      match file with
      | none => .error .noRecord
      | some bytes =>
        if MAX_RECORD_BYTES < bytes.length then .error (.unreadable .exceeds)
        else (parseRecord bytes ⟨nonce, h⟩).mapError .unreadable
    else .error .noNonce

/-- An event behind the others, `pushed`; in a full record it is `full`, in the last place. -/
def place (events : List JournalEvent) (full pushed : JournalEvent) : List JournalEvent :=
  if MAX_EVENTS ≤ events.length then events.set (MAX_EVENTS - 1) full else events ++ [pushed]

structure StagingJournal where
  record : JournalRecord
  file : Option (List ℕ)

def StagingJournal.open_ (header : JournalHeader) : StagingJournal := ⟨⟨header, []⟩, none⟩

structure Note where
  phase : JournalPhase
  now : Text
  detail : Option Text

def Note.event (n : Note) : JournalEvent := ⟨n.phase, n.now, (n.detail.filter (fun d => !d.isEmpty)).map redactDetail⟩

def StagingJournal.note (j : StagingJournal) (n : Note) : StagingJournal :=
  let record := { j.record with events := place j.record.events n.event n.event }
  ⟨record, some (encode record)⟩

def JournalEvent.redacted (e : JournalEvent) : JournalEvent :=
  { e with detail := e.detail.map (fun d => if d.isEmpty then d else redactDetail d) }

/-- The file afterwards, and why the event could not be added. -/
def appendJournalEvent (nonce : Text) (event : JournalEvent) (file : Option (List ℕ)) : Option Unrecorded × Option (List ℕ) :=
  match readJournal (some nonce) file with
  | .error reason => (some reason, file)
  -- a full record takes the event as it came
  | .ok record => (none, some (encode { record with events := place record.events event event.redacted }))

inductive AttemptOutcome
  | unknown | preInstallationFailure | installationAwaitingVerification | rolledBack | healthyInstallationCleanupFailed
  | completedCleanup

inductive Cleanup
  | complete | failed | notReached | unknown

structure JournalSummary where
  uncertain : Bool
  lastPhase : Option JournalPhase
  outcome : AttemptOutcome
  cleanup : Cleanup
  events : List JournalEvent
  process : Option ProcessIdentity

def seen (events : List JournalEvent) (p : JournalPhase) : Bool := events.any (fun e => e.phase == p)

def outcomeOf (events : List JournalEvent) : AttemptOutcome :=
  if seen events .verified && seen events .cleaned then .completedCleanup
  else if seen events .verified then .healthyInstallationCleanupFailed
  else if seen events .rolledBack then .rolledBack
  else if seen events .installed || seen events .installing then .installationAwaitingVerification
  else if seen events .failed then .preInstallationFailure
  else .unknown

def terminal (p : JournalPhase) : Bool := p == .cleaned || p == .cleanupFailed

def describeJournal : JournalRead → JournalSummary
  | .error _ => ⟨true, none, .unknown, .unknown, [], none⟩
  | .ok record =>
    let attemptLast := (record.events.filter (fun e => e.phase != .recovered)).getLast?
    { uncertain := !attemptLast.any (fun e => terminal e.phase)
      lastPhase := record.events.getLast?.map JournalEvent.phase
      outcome := outcomeOf record.events
      cleanup := if seen record.events .cleaned then .complete
        else if seen record.events .cleanupFailed then .failed else .notReached
      events := record.events
      process := record.process }

end Wollipog.Updater

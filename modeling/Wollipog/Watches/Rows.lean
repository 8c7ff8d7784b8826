import Wollipog.Lib.Js
import Wollipog.Lib.Utf8
import Wollipog.Reviews.Contract
/-!
# Rows — merge-queue watches and the wakes they owe, and what each operation does to the watches

One row per watch, in the order of their registration. A watch that ends owes its session a wake.
-/
namespace Wollipog.Watches

open Json (CodeUnit Text)
open Reviews (lit)

inductive PullRequestWatchState
  | watching | fired | lost | cancelled
deriving DecidableEq

inductive PullRequestWatchOutcome
  | merged | closed | queue_failed | queue_ejected | head_changed | checks_passed | checks_failed | no_required_checks
deriving DecidableEq

inductive PullRequestWatchContinuationState
  | held | delivering | delivered | uncertain | failed | abandoned
deriving DecidableEq

def PULL_REQUEST_WATCH_OUTCOMES : List PullRequestWatchOutcome :=
  [.merged, .closed, .queue_failed, .queue_ejected, .head_changed, .checks_passed, .checks_failed, .no_required_checks]

def PULL_REQUEST_WATCH_SUMMARY_LIMIT_BYTES : ℕ := 16 * 1024
def PULL_REQUEST_WATCH_REASON_LIMIT : ℕ := 300

structure Row where
  watch_id : String
  session_id : String
  runner_id : String
  repository : String
  pr_number : ℕ
  head_sha : String
  state : PullRequestWatchState
  outcome : Option PullRequestWatchOutcome
  summary : Option Text
  reason : Option Text
  created_at : ℤ
  ended_at : Option ℤ
  continuation_state : Option PullRequestWatchContinuationState
  continuation_command_id : Option String
  continuation_updated_at : Option ℤ
  parked_turn_seq : ℕ
deriving DecidableEq

/-- `VISIBLE` -/
def Row.visible (r : Row) : Bool :=
  r.state == .watching || r.continuation_state == some .held || r.continuation_state == some .delivering ||
    r.continuation_state == some .uncertain || r.continuation_state == some .failed

def isSpaceUnit (c : CodeUnit) : Bool := Js.isSpace (Char.ofNat c.val)

def trim (s : Text) : Text := ((s.dropWhile isSpaceUnit).reverse.dropWhile isSpaceUnit).reverse

def onOneLine : Text → Text
  | [] => []
  | c :: s =>
    if c = 13 ∨ c = 10 ∨ c = 9 then
      match s with
      | [] => [32]
      | d :: t => if d = 13 ∨ d = 10 ∨ d = 9 then onOneLine (d :: t) else 32 :: onOneLine (d :: t)
    else c :: onOneLine s

def boundedReason (value : Option Text) (fallback : Text) : Text :=
  let text := match value with
    | some value => trim (onOneLine value)
    | none => []
  let chosen := if text = [] then fallback else text
  if PULL_REQUEST_WATCH_REASON_LIMIT < chosen.length then
    chosen.take (PULL_REQUEST_WATCH_REASON_LIMIT - 1) ++ lit "…"
  else chosen

/-- The rows as this connection sees them, those when its transaction began, and the cached answer. -/
structure Conn where
  rows : List Row
  saved : Option (List Row)
  anyVisible : Option Bool
  ownsWrites : Bool
deriving DecidableEq

def Conn.isTransaction (c : Conn) : Bool := c.saved.isSome

def Conn.begin (c : Conn) : Conn := { c with saved := some c.rows }
def Conn.commit (c : Conn) : Conn := { c with saved := none }
def Conn.rollback (c : Conn) : Conn := { c with rows := c.saved.getD c.rows, saved := none }

def Conn.write (c : Conn) (f : List Row → List Row) : Conn := { c with rows := f c.rows, anyVisible := none }

/-- One transaction, or the caller's when one is already open; `none` is a throw. -/
def atomic {α : Type} (work : Conn → Option α × Conn) (c : Conn) : Option α × Conn :=
  if c.isTransaction then work c
  else
    match work c.begin with
    | (some result, d) => (some result, d.commit)
    | (none, d) => (none, d.rollback)

def noneVisible (c : Conn) : Bool × Conn :=
  match c.anyVisible with
  | some any => (!any, c)
  | none =>
    let any := c.rows.any Row.visible
    (!any, if c.ownsWrites && !c.isTransaction then { c with anyVisible := some any } else c)

def updateRows (p : Row → Bool) (f : Row → Row) (rows : List Row) : List Row := rows.map (fun r => if p r then f r else r)

/-! ## The operations -/

structure RegisterInput where
  watchId : String
  sessionId : String
  runnerId : String
  repository : String
  number : ℕ
  headSha : String
  now : ℤ
  /-- The newest user message of the session, as its events have it. -/
  newestUserMessage : ℕ

def watchingIds (sessionId : String) (rows : List Row) : List String :=
  (rows.filter (fun r => r.session_id == sessionId && r.state == .watching)).map Row.watch_id

def cancelWatching (sessionId : String) (reason : Text) (now : ℤ) : List Row → List Row :=
  updateRows (fun r => r.session_id == sessionId && r.state == .watching)
    (fun r => { r with state := .cancelled, reason := some reason, ended_at := some now })

def abandonWakes (sessionId : String) (open_ : List PullRequestWatchContinuationState) (now : ℤ) : List Row → List Row :=
  updateRows (fun r => r.session_id == sessionId && r.continuation_state.any (fun s => open_.contains s))
    (fun r => { r with continuation_state := some .abandoned, continuation_updated_at := some now })

def RegisterInput.row (input : RegisterInput) : Row where
  watch_id := input.watchId
  session_id := input.sessionId
  runner_id := input.runnerId
  repository := input.repository
  pr_number := input.number
  head_sha := input.headSha
  state := .watching
  outcome := none
  summary := none
  reason := none
  created_at := input.now
  ended_at := none
  continuation_state := none
  continuation_command_id := none
  continuation_updated_at := none
  parked_turn_seq := input.newestUserMessage

def insertable (row : Row) (rows : List Row) : Bool :=
  rows.all (fun r => r.watch_id != row.watch_id && !(r.session_id == row.session_id && r.state == .watching))

def register (input : RegisterInput) (c : Conn) : Option (List String) × Conn :=
  let replaced := watchingIds input.sessionId c.rows
  atomic (fun c =>
    let c := c.write (cancelWatching input.sessionId (lit "replaced by a newer watch") input.now)
    let c := c.write (abandonWakes input.sessionId [.held] input.now)
    if insertable input.row c.rows then (some replaced, c.write (fun rows => rows ++ [input.row]))
    else (none, c.write id)) c

inductive ReportedState
  | fired | lost | other
deriving DecidableEq

structure PullRequestWatchUpdate where
  watchId : Option String
  state : ReportedState
  outcome : Option PullRequestWatchOutcome
  summary : Option Text
  reason : Option Text

def isWatching (watchId : String) (r : Row) : Bool := r.watch_id == watchId && r.state == .watching

def markLost (watchId : String) (reason : Option Text) (now : ℤ) (c : Conn) : Bool × Conn :=
  (c.rows.any (isWatching watchId),
    c.write (updateRows (isWatching watchId) (fun r => { r with
      state := .lost
      reason := some (boundedReason reason (lit "the watch was lost"))
      ended_at := some now
      continuation_state := some .held
      continuation_updated_at := some now })))

def accept (runnerId : String) (update : PullRequestWatchUpdate) (now : ℤ) (c : Conn) : Option String × Conn :=
  match update.watchId.bind (fun watchId => c.rows.find? (fun r => r.watch_id == watchId)) with
  | none => (none, c)
  | some row =>
    if row.runner_id ≠ runnerId ∨ row.state ≠ .watching then (none, c)
    else
      match update.state with
      | .fired =>
        match update.outcome with
        | none => (none, c)
        | some outcome =>
          if PULL_REQUEST_WATCH_OUTCOMES.contains outcome = false then (none, c)
          else
            let summary := update.summary.filter (fun s =>
              decide (Utf8.byteLength s ≤ PULL_REQUEST_WATCH_SUMMARY_LIMIT_BYTES))
            let changed := c.rows.any (isWatching row.watch_id)
            (if changed then some row.session_id else none,
              c.write (updateRows (isWatching row.watch_id) (fun r => { r with
                state := .fired
                outcome := some outcome
                summary := summary
                ended_at := some now
                continuation_state := some .held
                continuation_updated_at := some now })))
      | .lost =>
        let marked := markLost row.watch_id (some (boundedReason update.reason (lit "the runner stopped watching"))) now c
        (if marked.1 then some row.session_id else none, marked.2)
      | .other => (none, c)

def cancelForSession (sessionId : String) (reason : Text) (now : ℤ) (c : Conn) : Option (List String) × Conn :=
  let cancelled := watchingIds sessionId c.rows
  atomic (fun c =>
    let c := c.write (cancelWatching sessionId (boundedReason (some reason) (lit "cancelled")) now)
    (some cancelled, c.write (abandonWakes sessionId [.held, .delivering] now))) c

def isHeld (sessionId watchId : String) (r : Row) : Bool :=
  r.watch_id == watchId && r.session_id == sessionId && r.continuation_state == some .held

/-- The same update for each named watch; a name that no held wake answers to throws. -/
def eachHeld (sessionId : String) (f : Row → Row) : List String → Conn → Option Unit × Conn
  | [], c => (some (), c)
  | watchId :: rest, c =>
    let c' := c.write (updateRows (isHeld sessionId watchId) f)
    if c.rows.countP (isHeld sessionId watchId) = 1 then eachHeld sessionId f rest c' else (none, c')

def bindWakes (sessionId : String) (watchIds : List String) (commandId : String) (now : ℤ) (c : Conn) :
    Option Unit × Conn :=
  eachHeld sessionId (fun r => { r with
    continuation_state := some .delivering
    continuation_command_id := some commandId
    continuation_updated_at := some now }) watchIds (c.write id)

def claimHeld (sessionId : String) (watchIds : List String) (now : ℤ) (c : Conn) : Bool × Conn :=
  let claimed := atomic (fun c => eachHeld sessionId (fun r => { r with
    continuation_state := some .delivered
    continuation_command_id := none
    continuation_updated_at := some now }) watchIds (c.write id)) c
  (claimed.1.isSome, claimed.2)

def releaseClaim (sessionId : String) (watchIds : List String) (now : ℤ) (c : Conn) : Conn :=
  watchIds.foldl (fun c watchId => c.write (updateRows
    (fun r => r.watch_id == watchId && r.session_id == sessionId && r.continuation_state == some .delivered &&
      r.continuation_command_id.isNone)
    (fun r => { r with continuation_state := some .held, continuation_updated_at := some now }))) (c.write id)

inductive CommandState
  | delivered | uncertain | failed
deriving DecidableEq

def CommandState.continuation : CommandState → PullRequestWatchContinuationState
  | .delivered => .delivered
  | .uncertain => .uncertain
  | .failed => .failed

def isCarried (commandId : String) (r : Row) : Bool :=
  r.continuation_command_id == some commandId && r.continuation_state == some .delivering

def setCommandState (commandId : String) (state : CommandState) (now : ℤ) (c : Conn) : ℕ × Conn :=
  (c.rows.countP (isCarried commandId),
    c.write (updateRows (isCarried commandId) (fun r => { r with
      continuation_state := some state.continuation
      continuation_updated_at := some now })))

def holdCommand (sessionId commandId : String) (now : ℤ) (c : Conn) : Bool × Conn :=
  (c.rows.any (fun r => r.session_id == sessionId && isCarried commandId r),
    c.write (updateRows (fun r => r.session_id == sessionId && isCarried commandId r) (fun r => { r with
      continuation_state := some .held
      continuation_command_id := none
      continuation_updated_at := some now })))

end Wollipog.Watches

/-! ## What each operation does to the watches

`Kept` is what every write keeps of a row and `Works` what a piece of work keeps of the connection.
-/
namespace Wollipog.Watches

open Json (Text)

/-! ## Rows and what happened to them -/

inductive Event
  | parked (sessionId : String)
  | cancelled (sessionId : String)
  | reported (runnerId watchId : String)
  | foundLost (watchId : String)
deriving DecidableEq

def Event.Ends (watchId : String) : Event → Prop
  | .reported _ w => w = watchId
  | .foundLost w => w = watchId
  | _ => False

def Event.Supersedes (sessionId : String) : Event → Prop
  | .parked s => s = sessionId
  | .cancelled s => s = sessionId
  | _ => False

def Row.Ended (r : Row) : Prop := r.state = .fired ∨ r.state = .lost

/-- The two states of a row agree: a wake is owed by an ended watch only. -/
def Row.Sound (r : Row) : Prop :=
  match r.continuation_state with
  | none => ¬ r.Ended ∧ r.continuation_command_id = none
  | some .held => r.Ended ∧ r.continuation_command_id = none
  | some .delivering => r.Ended ∧ ∃ commandId, r.continuation_command_id = some commandId
  | some _ => r.Ended

def Row.EndedIn (log : List Event) (r : Row) : Prop :=
  ∃ earlier e later, log = earlier ++ e :: later ∧ e.Ends r.watch_id ∧
    (r.continuation_state = some .abandoned → ∃ void ∈ later, void.Supersedes r.session_id)

def Row.DeliveredBy (commandId : String) (r : Row) : Prop :=
  r.continuation_state = some .delivered ∧ r.continuation_command_id = some commandId

/-- What every write keeps of a row, the log growing from `log` to `log'`. -/
structure Kept (log log' : List Event) (r r' : Row) : Prop where
  watch : r'.watch_id = r.watch_id
  session : r'.session_id = r.session_id
  runner : r'.runner_id = r.runner_id
  watching : r'.state = .watching → r.state = .watching
  sound : r.Sound → r'.Sound
  still : r.Ended → r'.Ended
  ended : (r.Ended → r.EndedIn log) → r'.Ended → r'.EndedIn log'
  delivered : r.Sound → ∀ commandId, r.DeliveredBy commandId → r'.DeliveredBy commandId

structure Inv (rows : List Row) (log : List Event) : Prop where
  ids : (rows.map Row.watch_id).Nodup
  one : ∀ a ∈ rows, ∀ b ∈ rows, a.state = .watching → b.state = .watching → a.session_id = b.session_id → a = b
  sound : ∀ r ∈ rows, r.Sound
  ended : ∀ r ∈ rows, r.Ended → r.EndedIn log
  reported : ∀ runnerId watchId, .reported runnerId watchId ∈ log →
    ∃ r ∈ rows, r.watch_id = watchId ∧ r.runner_id = runnerId ∧ r.Ended

theorem Row.EndedIn.append {log : List Event} {r : Row} (h : r.EndedIn log) (more : List Event) : r.EndedIn (log ++ more) := by
  obtain ⟨earlier, e, later, rfl, hends, hvoid⟩ := h
  refine ⟨earlier, e, later ++ more, by rw [List.append_assoc]; rfl, hends, fun habandoned => ?_⟩
  obtain ⟨void, hmem, hsupersedes⟩ := hvoid habandoned
  exact ⟨void, List.mem_append_left _ hmem, hsupersedes⟩

theorem Kept.refl (log : List Event) (more : List Event) (r : Row) : Kept log (log ++ more) r r where
  watch := rfl
  session := rfl
  runner := rfl
  watching := id
  sound := id
  still := id
  ended h hended := (h hended).append more
  delivered _ _ := id

theorem Kept.same (log : List Event) (r : Row) : Kept log log r r := by
  have h := Kept.refl log [] r
  rwa [List.append_nil] at h

/-- **Writes that keep each row keep the invariant.** -/
theorem Inv.map {rows : List Row} {log log' : List Event} (h : Inv rows log) (f : Row → Row)
    (hkept : ∀ r ∈ rows, Kept log log' r (f r))
    (hreported : ∀ runnerId watchId, .reported runnerId watchId ∈ log' → .reported runnerId watchId ∈ log ∨
      ∃ r ∈ rows, r.watch_id = watchId ∧ r.runner_id = runnerId ∧ (f r).Ended) : Inv (rows.map f) log' where
  ids := by
    have hids : (rows.map f).map Row.watch_id = rows.map Row.watch_id := by
      rw [List.map_map]
      exact List.map_congr_left (fun r hr => (hkept r hr).watch)
    rw [hids]
    exact h.ids
  one := by
    intro a ha b hb hwa hwb hsession
    obtain ⟨r, hr, rfl⟩ := List.mem_map.1 ha
    obtain ⟨q, hq, rfl⟩ := List.mem_map.1 hb
    rw [(hkept r hr).session, (hkept q hq).session] at hsession
    rw [h.one r hr q hq ((hkept r hr).watching hwa) ((hkept q hq).watching hwb) hsession]
  sound := by
    intro a ha
    obtain ⟨r, hr, rfl⟩ := List.mem_map.1 ha
    exact (hkept r hr).sound (h.sound r hr)
  ended := by
    intro a ha
    obtain ⟨r, hr, rfl⟩ := List.mem_map.1 ha
    exact (hkept r hr).ended (h.ended r hr)
  reported := by
    intro runnerId watchId hmem
    rcases hreported runnerId watchId hmem with hold | ⟨r, hr, hwatch, hrunner, hended⟩
    · obtain ⟨r, hr, hwatch, hrunner, hended⟩ := h.reported runnerId watchId hold
      exact ⟨f r, List.mem_map_of_mem hr, (hkept r hr).watch.trans hwatch, (hkept r hr).runner.trans hrunner,
        (hkept r hr).still hended⟩
    · exact ⟨f r, List.mem_map_of_mem hr, (hkept r hr).watch.trans hwatch, (hkept r hr).runner.trans hrunner, hended⟩

def DeliveredKept (rows rows' : List Row) : Prop :=
  ∀ r ∈ rows, ∀ commandId, r.DeliveredBy commandId → ∃ r' ∈ rows', r'.watch_id = r.watch_id ∧ r'.DeliveredBy commandId

theorem DeliveredKept.refl (rows : List Row) : DeliveredKept rows rows := fun r hr _ h => ⟨r, hr, rfl, h⟩

theorem DeliveredKept.trans {a b c : List Row} (hab : DeliveredKept a b) (hbc : DeliveredKept b c) : DeliveredKept a c := by
  intro r hr commandId h
  obtain ⟨q, hq, hwatch, hq'⟩ := hab r hr commandId h
  obtain ⟨p, hp, hwatch', hp'⟩ := hbc q hq commandId hq'
  exact ⟨p, hp, hwatch'.trans hwatch, hp'⟩

structure Works (log log' : List Event) (c c' : Conn) : Prop where
  saved : c'.saved = c.saved
  owns : c'.ownsWrites = c.ownsWrites
  cache : c'.anyVisible = none ∨ c' = c
  inv : Inv c.rows log → Inv c'.rows log'
  kept : Inv c.rows log → DeliveredKept c.rows c'.rows

theorem Works.refl (log : List Event) (c : Conn) : Works log log c c where
  saved := rfl
  owns := rfl
  cache := Or.inr rfl
  inv := id
  kept _ := DeliveredKept.refl _

theorem Works.trans {log log' log'' : List Event} {a b c : Conn} (hab : Works log log' a b) (hbc : Works log' log'' b c) :
    Works log log'' a c where
  saved := hbc.saved.trans hab.saved
  owns := hbc.owns.trans hab.owns
  cache := by
    rcases hbc.cache with h | rfl
    · exact Or.inl h
    · exact hab.cache
  inv h := hbc.inv (hab.inv h)
  kept h := (hab.kept h).trans (hbc.kept (hab.inv h))

theorem Works.update {log log' : List Event} (c : Conn) {p : Row → Bool} {f : Row → Row}
    (hmatch : ∀ r ∈ c.rows, p r = true → Kept log log' r (f r))
    (hother : ∀ r, p r = false → Kept log log' r r)
    (hreported : ∀ runnerId watchId, .reported runnerId watchId ∈ log' → .reported runnerId watchId ∈ log ∨
      ∃ r ∈ c.rows, r.watch_id = watchId ∧ r.runner_id = runnerId ∧ (if p r then f r else r).Ended) :
    Works log log' c (c.write (updateRows p f)) := by
  have hkept : ∀ r ∈ c.rows, Kept log log' r (if p r then f r else r) := by
    intro r hr
    by_cases hp : p r = true
    · rw [if_pos hp]
      exact hmatch r hr hp
    · rw [if_neg hp]
      exact hother r (Bool.not_eq_true _ ▸ hp)
  refine ⟨rfl, rfl, Or.inl rfl, fun h => h.map _ hkept hreported, fun hinv r hr commandId h => ?_⟩
  exact ⟨_, List.mem_map_of_mem hr, (hkept r hr).watch, (hkept r hr).delivered (hinv.sound r hr) commandId h⟩

theorem Works.quiet {log : List Event} (c : Conn) {p : Row → Bool} {f : Row → Row}
    (hmatch : ∀ r ∈ c.rows, p r = true → Kept log log r (f r)) : Works log log c (c.write (updateRows p f)) :=
  Works.update c hmatch (fun r _ => Kept.same log r) (fun _ _ h => Or.inl h)

theorem Works.rewrite (log : List Event) (c : Conn) : Works log log c (c.write id) where
  saved := rfl
  owns := rfl
  cache := Or.inl rfl
  inv := id
  kept _ := DeliveredKept.refl _

theorem Works.logged (log : List Event) (c : Conn) {e : Event} (h : ∀ runnerId watchId, e ≠ .reported runnerId watchId) :
    Works log (log ++ [e]) c c where
  saved := rfl
  owns := rfl
  cache := Or.inr rfl
  inv hinv := by
    have hmap := hinv.map id (fun r _ => Kept.refl log [e] r) (fun runnerId watchId hmem => by
      rcases List.mem_append.1 hmem with hold | hnew
      · exact Or.inl hold
      · exact absurd (List.mem_singleton.1 hnew).symm (h runnerId watchId))
    rwa [List.map_id] at hmap
  kept _ := DeliveredKept.refl _

theorem Kept.wake (log : List Event) {r : Row} {state : PullRequestWatchContinuationState} {commandId : Option String}
    {now : Option ℤ} (hnot : state ≠ .abandoned)
    (hsound : r.Sound → Row.Sound { r with
      continuation_state := some state, continuation_command_id := commandId, continuation_updated_at := now })
    (hfree : ∀ c, ¬ r.DeliveredBy c) :
    Kept log log r { r with
      continuation_state := some state, continuation_command_id := commandId, continuation_updated_at := now } where
  watch := rfl
  session := rfl
  runner := rfl
  watching := id
  sound := hsound
  still := id
  ended h hended := by
    obtain ⟨earlier, e, later, hlog, hends, -⟩ := h hended
    exact ⟨earlier, e, later, hlog, hends, fun habandoned => absurd (Option.some.inj habandoned) hnot⟩
  delivered _ c h := absurd h (hfree c)

theorem not_deliveredBy {r : Row} {state : PullRequestWatchContinuationState} (h : r.continuation_state = some state)
    (hne : state ≠ .delivered) (commandId : String) : ¬ r.DeliveredBy commandId := by
  rintro ⟨hdelivered, -⟩
  rw [h] at hdelivered
  exact hne (Option.some.inj hdelivered)

theorem Row.Sound.held {r : Row} (h : r.Sound) (hheld : r.continuation_state = some .held) :
    r.Ended ∧ r.continuation_command_id = none := by
  unfold Row.Sound at h
  rwa [hheld] at h

theorem Row.Sound.delivering {r : Row} (h : r.Sound) (hdelivering : r.continuation_state = some .delivering) :
    r.Ended ∧ ∃ commandId, r.continuation_command_id = some commandId := by
  unfold Row.Sound at h
  rwa [hdelivering] at h

theorem Row.Sound.ended {r : Row} (h : r.Sound) {state : PullRequestWatchContinuationState}
    (hstate : r.continuation_state = some state) : r.Ended := by
  unfold Row.Sound at h
  rw [hstate] at h
  cases state with
  | held => exact h.1
  | delivering => exact h.1
  | delivered => exact h
  | uncertain => exact h
  | failed => exact h
  | abandoned => exact h

theorem Row.Sound.watching {r : Row} (h : r.Sound) (hwatching : r.state = .watching) :
    r.continuation_state = none ∧ r.continuation_command_id = none := by
  have hnot : ¬ r.Ended := by
    unfold Row.Ended
    rw [hwatching]
    rintro (hfired | hlost)
    · cases hfired
    · cases hlost
  cases hstate : r.continuation_state with
  | some state => exact absurd (h.ended hstate) hnot
  | none =>
    unfold Row.Sound at h
    rw [hstate] at h
    exact ⟨rfl, h.2⟩

theorem Kept.cancel (log : List Event) {r : Row} (hwatching : r.state = .watching) (reason : Option Text) (at_ : Option ℤ) :
    Kept log log r { r with state := .cancelled, reason := reason, ended_at := at_ } where
  watch := rfl
  session := rfl
  runner := rfl
  watching h := by cases h
  sound h := by
    have hnone := h.watching hwatching
    unfold Row.Sound
    simp only [hnone.1]
    refine ⟨?_, hnone.2⟩
    rintro (hfired | hlost)
    · cases hfired
    · cases hlost
  still h := by
    unfold Row.Ended at h
    rw [hwatching] at h
    rcases h with h | h <;> cases h
  ended _ h := by rcases h with h | h <;> cases h
  delivered _ _ h := h

theorem Event.not_both {e : Event} {watchId sessionId : String} (hends : e.Ends watchId) : ¬ e.Supersedes sessionId := by
  cases e with
  | parked s => exact absurd hends id
  | cancelled s => exact absurd hends id
  | reported r w => exact id
  | foundLost w => exact id

theorem Kept.abandon {log : List Event} {void : Event} {r : Row} {state : PullRequestWatchContinuationState}
    (hstate : r.continuation_state = some state) (hopen : state ≠ .delivered) (hvoid : void.Supersedes r.session_id)
    (now : Option ℤ) :
    Kept (log ++ [void]) (log ++ [void]) r
      { r with continuation_state := some .abandoned, continuation_updated_at := now } where
  watch := rfl
  session := rfl
  runner := rfl
  watching := id
  sound h := h.ended hstate
  still := id
  ended h hended := by
    obtain ⟨earlier, e, later, hlog, hends, -⟩ := h hended
    refine ⟨earlier, e, later, hlog, hends, fun _ => ⟨void, ?_, hvoid⟩⟩
    rcases List.eq_nil_or_concat later with rfl | ⟨init, last, rfl⟩
    · have hlast := (List.append_inj' hlog rfl).2
      cases hlast
      exact absurd hvoid (Event.not_both hends)
    · have hsplit : log ++ [void] = (earlier ++ e :: init) ++ [last] := by
        rw [hlog]
        simp
      have hlast := (List.append_inj' hsplit rfl).2
      cases hlast
      simp
  delivered _ c h := absurd h (not_deliveredBy hstate hopen c)

theorem Kept.finish {log : List Event} {e : Event} {r : Row} {state : PullRequestWatchState}
    (hwatching : r.state = .watching) (hstate : state = .fired ∨ state = .lost) (hends : e.Ends r.watch_id)
    (outcome : Option PullRequestWatchOutcome) (summary reason : Option Text) (at_ now : Option ℤ) :
    Kept log (log ++ [e]) r { r with
      state := state, outcome := outcome, summary := summary, reason := reason, ended_at := at_,
      continuation_state := some .held, continuation_updated_at := now } where
  watch := rfl
  session := rfl
  runner := rfl
  watching _ := hwatching
  sound h := ⟨hstate, (h.watching hwatching).2⟩
  still _ := hstate
  ended _ _ := ⟨log, e, [], rfl, hends, fun h => by cases h⟩
  delivered h c hdelivered := by
    have hnone := (h.watching hwatching).1
    rw [hdelivered.1] at hnone
    cases hnone

/-! ## What each operation does to the rows -/

theorem atomic_works {α : Type} {log log' : List Event} {work : Conn → Option α × Conn}
    (hwork : ∀ c, Works log log' c (work c).2) (c : Conn) :
    Works log (if (atomic work c).1.isNone && !c.isTransaction then log else log') c (atomic work c).2 := by
  unfold atomic
  cases hopen : c.isTransaction with
  | true =>
    rw [if_pos rfl, Bool.not_true, Bool.and_false, if_neg Bool.false_ne_true]
    exact hwork c
  | false =>
    have hnone : c.saved = none := by
      unfold Conn.isTransaction at hopen
      exact Option.not_isSome_iff_eq_none.1 (by rw [hopen]; exact Bool.false_ne_true)
    have hinner := hwork c.begin
    rw [if_neg Bool.false_ne_true]
    have hsaved : (work c.begin).2.saved = some c.rows := hinner.saved
    cases hresult : work c.begin with
    | mk result d =>
      rw [hresult] at hinner hsaved
      cases result with
      | some result =>
        refine ⟨hnone.symm, hinner.owns, ?_, hinner.inv, hinner.kept⟩
        rcases hinner.cache with h | h
        · exact Or.inl h
        · right
          change d = c.begin at h
          rw [h]
          cases c
          cases hnone
          rfl
      | none =>
        have hrows : d.rollback.rows = c.rows := by
          change d.saved.getD d.rows = c.rows
          rw [hsaved]
          rfl
        refine ⟨hnone.symm, hinner.owns, ?_, fun h => ?_, fun _ => ?_⟩
        · rcases hinner.cache with h | h
          · exact Or.inl h
          · right
            change d = c.begin at h
            rw [h]
            cases c
            cases hnone
            rfl
        · change Inv d.rollback.rows log
          rw [hrows]
          exact h
        · change DeliveredKept c.rows d.rollback.rows
          rw [hrows]
          exact DeliveredKept.refl _

theorem atomic_quiet {α : Type} {log : List Event} {work : Conn → Option α × Conn} (hwork : ∀ c, Works log log c (work c).2)
    (c : Conn) : Works log log c (atomic work c).2 := by
  have h := atomic_works hwork c
  rwa [ite_self] at h

theorem cancelWatching_works (log : List Event) (sessionId : String) (reason : Text) (now : ℤ) (c : Conn) :
    Works log log c (c.write (cancelWatching sessionId reason now)) := by
  refine Works.quiet c (fun r _ hp => ?_)
  rw [Bool.and_eq_true, beq_iff_eq, beq_iff_eq] at hp
  exact Kept.cancel log hp.2 _ _

theorem abandonWakes_works (log : List Event) {void : Event} {sessionId : String} (hvoid : void.Supersedes sessionId)
    {open_ : List PullRequestWatchContinuationState} (hopen : PullRequestWatchContinuationState.delivered ∉ open_) (now : ℤ)
    (c : Conn) : Works (log ++ [void]) (log ++ [void]) c (c.write (abandonWakes sessionId open_ now)) := by
  refine Works.quiet c (fun r _ hp => ?_)
  rw [Bool.and_eq_true, beq_iff_eq, Option.any_eq_true] at hp
  obtain ⟨hsession, state, hstate, hmem⟩ := hp
  refine Kept.abandon hstate (fun heq => hopen ?_) (by rwa [hsession]) _
  rw [← heq]
  exact List.contains_iff_mem.1 hmem

theorem insert_works (log : List Event) (input : RegisterInput) (c : Conn) (h : insertable input.row c.rows = true) :
    Works log log c (c.write (fun rows => rows ++ [input.row])) := by
  unfold insertable at h
  simp only [List.all_eq_true, Bool.and_eq_true, bne_iff_ne, Bool.not_eq_true', Bool.and_eq_false_iff, beq_eq_false_iff_ne] at h
  have hnot : ¬ input.row.Ended := by
    rintro (hfired | hlost)
    · cases hfired
    · cases hlost
  refine ⟨rfl, rfl, Or.inl rfl, fun hinv => ⟨?_, ?_, ?_, ?_, ?_⟩, fun _ r hr commandId hdelivered => ?_⟩
  · change ((c.rows ++ [input.row]).map Row.watch_id).Nodup
    rw [List.map_append, List.nodup_append]
    refine ⟨hinv.ids, List.nodup_singleton _, fun a ha b hb => ?_⟩
    obtain ⟨r, hr, rfl⟩ := List.mem_map.1 ha
    rw [List.map_singleton, List.mem_singleton] at hb
    rw [hb]
    exact (h r hr).1
  · intro a ha b hb hwa hwb hsession
    rcases List.mem_append.1 ha with ha | ha <;> rcases List.mem_append.1 hb with hb | hb
    · exact hinv.one a ha b hb hwa hwb hsession
    · rw [List.mem_singleton] at hb
      subst hb
      rcases (h a ha).2 with hne | hne
      · exact absurd hsession hne
      · exact absurd hwa hne
    · rw [List.mem_singleton] at ha
      subst ha
      rcases (h b hb).2 with hne | hne
      · exact absurd hsession.symm hne
      · exact absurd hwb hne
    · rw [List.mem_singleton] at ha hb
      rw [ha, hb]
  · intro r hr
    rcases List.mem_append.1 hr with hr | hr
    · exact hinv.sound r hr
    · rw [List.mem_singleton] at hr
      subst hr
      exact ⟨hnot, rfl⟩
  · intro r hr hended
    rcases List.mem_append.1 hr with hr | hr
    · exact hinv.ended r hr hended
    · rw [List.mem_singleton] at hr
      subst hr
      exact absurd hended hnot
  · intro runnerId watchId hmem
    obtain ⟨r, hr, hrest⟩ := hinv.reported runnerId watchId hmem
    exact ⟨r, List.mem_append_left _ hr, hrest⟩
  · exact ⟨r, List.mem_append_left _ hr, rfl, hdelivered⟩

theorem register_works (log : List Event) (input : RegisterInput) (c : Conn) :
    Works log (if (register input c).1.isNone && !c.isTransaction then log else log ++ [.parked input.sessionId]) c
      (register input c).2 := by
  refine atomic_works (fun c => ?_) c
  have hvoid : (Event.parked input.sessionId).Supersedes input.sessionId := rfl
  have hlogged : Works log (log ++ [.parked input.sessionId]) c c := Works.logged log c (fun _ _ h => by cases h)
  have hcleared := (hlogged.trans (cancelWatching_works _ input.sessionId (Reviews.lit "replaced by a newer watch")
    input.now c)).trans (@abandonWakes_works log _ _ hvoid [.held] (by decide) input.now _)
  simp only
  split
  · rename_i hinsertable
    exact hcleared.trans (insert_works _ input _ hinsertable)
  · exact hcleared.trans (Works.rewrite _ _)

theorem cancelForSession_works (log : List Event) (sessionId : String) (reason : Text) (now : ℤ) (c : Conn) :
    Works log (if (cancelForSession sessionId reason now c).1.isNone && !c.isTransaction then log
      else log ++ [.cancelled sessionId]) c (cancelForSession sessionId reason now c).2 := by
  refine atomic_works (fun c => ?_) c
  have hvoid : (Event.cancelled sessionId).Supersedes sessionId := rfl
  have hlogged : Works log (log ++ [.cancelled sessionId]) c c := Works.logged log c (fun _ _ h => by cases h)
  exact (hlogged.trans (cancelWatching_works _ sessionId _ now c)).trans
    (@abandonWakes_works log _ _ hvoid [.held, .delivering] (by decide) now _)

theorem finish_works (log : List Event) {e : Event} {watchId : String} (hends : e.Ends watchId)
    {state : PullRequestWatchState} (hstate : state = .fired ∨ state = .lost) {f : Row → Row}
    (hf : ∀ r, ∃ outcome summary reason at_ now, f r = { r with
      state := state, outcome := outcome, summary := summary, reason := reason, ended_at := at_,
      continuation_state := some .held, continuation_updated_at := now }) (c : Conn)
    (hrunner : ∀ runnerId w, e = .reported runnerId w → ∃ r ∈ c.rows, isWatching watchId r = true ∧ r.runner_id = runnerId) :
    Works log (log ++ [e]) c (c.write (updateRows (isWatching watchId) f)) := by
  refine Works.update c (fun r _ hp => ?_) (fun r _ => Kept.refl log [e] r) (fun runnerId w hmem => ?_)
  · rw [isWatching, Bool.and_eq_true, beq_iff_eq, beq_iff_eq] at hp
    obtain ⟨outcome, summary, reason, at_, now, hrow⟩ := hf r
    rw [hrow]
    exact Kept.finish hp.2 hstate (by rwa [hp.1]) outcome summary reason at_ now
  · rcases List.mem_append.1 hmem with hold | hnew
    · exact Or.inl hold
    · have he := List.mem_singleton.1 hnew
      obtain ⟨r, hr, hp, hown⟩ := hrunner runnerId w he.symm
      have hwatch : r.watch_id = watchId := by
        rw [isWatching, Bool.and_eq_true, beq_iff_eq] at hp
        exact hp.1
      subst he
      have hw : w = watchId := hends
      refine Or.inr ⟨r, hr, hwatch.trans hw.symm, hown, ?_⟩
      rw [if_pos hp]
      obtain ⟨outcome, summary, reason, at_, now, hrow⟩ := hf r
      rw [hrow]
      exact hstate

theorem Works.unmatched (log : List Event) (c : Conn) {p : Row → Bool} (f : Row → Row) (h : c.rows.any p = false) :
    Works log log c (c.write (updateRows p f)) := by
  refine Works.quiet c (fun r hr hp => ?_)
  rw [List.any_eq_false] at h
  exact absurd hp (h r hr)

theorem markLost_works (log : List Event) (watchId : String) (reason : Option Text) (now : ℤ) (c : Conn) :
    Works log (if (markLost watchId reason now c).1 then log ++ [.foundLost watchId] else log) c
      (markLost watchId reason now c).2 := by
  unfold markLost
  cases hany : c.rows.any (isWatching watchId) with
  | false => exact Works.unmatched log c _ hany
  | true =>
    exact @finish_works log (.foundLost watchId) watchId rfl .lost (Or.inr rfl) _ (fun r => ⟨_, _, _, _, _, rfl⟩) c
      (fun _ _ h => by cases h)

/-- **A report changes nothing, or it is the owner's about a watching row**, which it ends. -/
theorem accept_cases (runnerId : String) (update : PullRequestWatchUpdate) (now : ℤ) (c : Conn) :
    accept runnerId update now c = (none, c) ∨ ∃ row ∈ c.rows, update.watchId = some row.watch_id ∧
      row.runner_id = runnerId ∧ row.state = .watching ∧ (accept runnerId update now c).1 = some row.session_id ∧
      ∃ state f, (state = .fired ∨ state = .lost) ∧ (accept runnerId update now c).2 =
        c.write (updateRows (isWatching row.watch_id) f) ∧ ∀ r, ∃ outcome summary reason at_ now, f r = { r with
          state := state, outcome := outcome, summary := summary, reason := reason, ended_at := at_,
          continuation_state := some .held, continuation_updated_at := now } := by
  unfold accept
  cases hfind : update.watchId.bind (fun watchId => c.rows.find? (fun r => r.watch_id == watchId)) with
  | none => exact Or.inl rfl
  | some row =>
    obtain ⟨watchId, hwatch, hrow⟩ := Option.bind_eq_some_iff.1 hfind
    have hmem := List.mem_of_find?_eq_some hrow
    have hid := List.find?_some hrow
    rw [beq_iff_eq] at hid
    simp only
    split
    · exact Or.inl rfl
    · rename_i howner
      rw [not_or, not_not, not_not] at howner
      have hany : c.rows.any (isWatching row.watch_id) = true := by
        rw [List.any_eq_true]
        exact ⟨row, hmem, by rw [isWatching, howner.2]; simp⟩
      cases update.state with
      | other => exact Or.inl rfl
      | lost =>
        right
        refine ⟨row, hmem, by rw [hwatch, hid], howner.1, howner.2, ?_, .lost, _, Or.inr rfl, rfl, fun r => ⟨_, _, _, _, _, rfl⟩⟩
        simp only [markLost, hany]
        rfl
      | fired =>
        cases update.outcome with
        | none => exact Or.inl rfl
        | some outcome =>
          simp only
          split
          · exact Or.inl rfl
          · right
            refine ⟨row, hmem, by rw [hwatch, hid], howner.1, howner.2, ?_, .fired, _, Or.inl rfl, rfl,
              fun r => ⟨_, _, _, _, _, rfl⟩⟩
            rfl

def reports (runnerId : String) (update : PullRequestWatchUpdate) (now : ℤ) (c : Conn) : List Event :=
  if (accept runnerId update now c).1.isSome then update.watchId.toList.map (.reported runnerId) else []

theorem accept_works (log : List Event) (runnerId : String) (update : PullRequestWatchUpdate) (now : ℤ) (c : Conn) :
    Works log (log ++ reports runnerId update now c) c (accept runnerId update now c).2 := by
  unfold reports
  rcases accept_cases runnerId update now c with h | ⟨row, hrow, hwatch, hrunner, hwatching, hsession, state, f, hstate, hrows, hf⟩
  · rw [h]
    simp only [Option.isSome_none, Bool.false_eq_true, if_false, List.append_nil]
    exact Works.refl log c
  · rw [hrows, hsession, hwatch, Option.isSome_some, if_pos rfl]
    refine @finish_works log (.reported runnerId row.watch_id) row.watch_id rfl state hstate f hf c (fun r w he => ?_)
    cases he
    refine ⟨row, hrow, ?_, hrunner⟩
    rw [isWatching, hwatching]
    simp

theorem eachHeld_works (log : List Event) (sessionId : String) {f : Row → Row}
    (hf : ∀ r, r.continuation_state = some .held → Kept log log r (f r)) : ∀ (watchIds : List String) (c : Conn),
      Works log log c (eachHeld sessionId f watchIds c).2
  | [], c => Works.refl log c
  | watchId :: rest, c => by
    have hwrite : Works log log c (c.write (updateRows (isHeld sessionId watchId) f)) :=
      Works.quiet c (fun r _ hp => by
        rw [isHeld, Bool.and_eq_true, beq_iff_eq] at hp
        exact hf r hp.2)
    unfold eachHeld
    simp only
    split
    · exact hwrite.trans (eachHeld_works log sessionId hf rest _)
    · exact hwrite

theorem bindWakes_works (log : List Event) (sessionId : String) (watchIds : List String) (commandId : String) (now : ℤ)
    (c : Conn) : Works log log c (bindWakes sessionId watchIds commandId now c).2 := by
  refine (Works.rewrite log c).trans (eachHeld_works log sessionId (fun r hr => ?_) watchIds _)
  exact Kept.wake log (by decide) (fun h => ⟨(h.held hr).1, commandId, rfl⟩) (not_deliveredBy hr (by decide))

theorem claimHeld_works (log : List Event) (sessionId : String) (watchIds : List String) (now : ℤ) (c : Conn) :
    Works log log c (claimHeld sessionId watchIds now c).2 := by
  refine atomic_quiet (fun c => (Works.rewrite log c).trans (eachHeld_works log sessionId (fun r hr => ?_) watchIds _)) c
  exact Kept.wake log (by decide) (fun h => (h.held hr).1) (not_deliveredBy hr (by decide))

theorem releaseClaim_works (log : List Event) (sessionId : String) (now : ℤ) : ∀ (watchIds : List String) (c : Conn),
    Works log log c (releaseClaim sessionId watchIds now c) := by
  intro watchIds c
  refine (Works.rewrite log c).trans ?_
  unfold releaseClaim
  generalize c.write id = d
  induction watchIds generalizing d with
  | nil => exact Works.refl log d
  | cons watchId rest ih =>
    rw [List.foldl_cons]
    refine Works.trans (Works.quiet d (fun r _ hp => ?_)) (ih _)
    simp only [Bool.and_eq_true, beq_iff_eq, Option.isNone_iff_eq_none] at hp
    obtain ⟨⟨-, hdelivered⟩, hcommand⟩ := hp
    have hkept := @Kept.wake log r .held r.continuation_command_id (some now) (by decide)
      (fun h => ⟨h.ended hdelivered, hcommand⟩) (fun commandId h => by
        have hsome := h.2
        rw [hcommand] at hsome
        cases hsome)
    exact hkept

theorem setCommandState_works (log : List Event) (commandId : String) (state : CommandState) (now : ℤ) (c : Conn) :
    Works log log c (setCommandState commandId state now c).2 := by
  refine Works.quiet c (fun r _ hp => ?_)
  rw [isCarried, Bool.and_eq_true, beq_iff_eq, beq_iff_eq] at hp
  have hkept := @Kept.wake log r state.continuation r.continuation_command_id (some now) (by cases state <;> decide)
    (fun h => by
      have hended := (h.delivering hp.2).1
      cases state <;> exact hended) (not_deliveredBy hp.2 (by decide))
  exact hkept

theorem holdCommand_works (log : List Event) (sessionId commandId : String) (now : ℤ) (c : Conn) :
    Works log log c (holdCommand sessionId commandId now c).2 := by
  refine Works.quiet c (fun r _ hp => ?_)
  rw [Bool.and_eq_true, isCarried, Bool.and_eq_true, beq_iff_eq, beq_iff_eq, beq_iff_eq] at hp
  exact Kept.wake log (by decide) (fun h => ⟨(h.delivering hp.2.2).1, rfl⟩) (not_deliveredBy hp.2.2 (by decide))

end Wollipog.Watches

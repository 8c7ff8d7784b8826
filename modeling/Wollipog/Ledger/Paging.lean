import Wollipog.Ledger.Dependencies
import Wollipog.Lib.Base64url
import Wollipog.Lib.JsonNumber
import Wollipog.Reviews.Contract
/-!
# Paging — the pages of a campaign's work items

A page is a slice of the items that match, in the order asked for, and its cursor binds that order. A chain of pages
is refused as stale, or gives each matching item once.
-/
namespace Wollipog.Ledger

open Authority (CampaignIssueRef campaignRepositoryLocation)
open Closure (PrimaryState)
open Json (Text Value Numerals)
open Reviews (lit)
open Scope (sortBy_perm)

def ForgeFact.shown : ForgeFact → Option ForgeState
  | .fresh value _ => some value.state
  | .stale value _ => some value.state
  | .unavailable _ _ => none

def campaignMergeDependencyStatus (prerequisite : CampaignMergePrerequisite) : MergeDependencyStatus :=
  if prerequisite.commitment ≠ .committed then .failed
  else if prerequisite.pullRequests.isEmpty then .unmerged
  else if prerequisite.pullRequests.any (fun p => p.fact.shown == some .closed) then .failed
  else if prerequisite.pullRequests.all (fun p => p.fact.shown == some .merged) then .merged
  else .unmerged

structure LedgerSnapshot where
  revision : ℕ
  items : List ItemRow
  attempts : String → List AttemptRow
  verifications : String → List VerificationRow
  deliveries : String → List DeliveryRow
  derived : OrdMap String DerivedState
  repositories : String → Option String

/-- What the derivation reads about one item; `ownMerged` is whether the item's own pull requests are merged. -/
def stateRecord (t : Tables) (h : Hooks) (ownMerged : String → Bool) (campaignId : String) (item : ItemRow) : WorkItemStateRecord :=
  let latest := t.latestAttempt campaignId item.id
  let prerequisites := prerequisitesOf t h campaignId item.id (workRepositories t h campaignId item.id)
  { id := item.id
    commitment := item.commitment
    dispatchState := item.dispatchState
    hasBlocker := item.blocker.isSome
    dependsOn := t.dependsOn campaignId item.id
    latestAttempt := latest.map (fun a => ⟨a.ended.isNone, (t.verificationsOf campaignId item.id).any (fun v =>
      v.attemptId == a.id && decide (v.outcome = .delivered))⟩)
    openAttemptSession := ((latest.filter (fun a => a.ended.isNone)).bind AttemptRow.sessionId).bind (observeSession t h)
    recordedDelivery := (currentDelivery (t.deliveriesOf campaignId item.id) latest).isSome
    mergeDependencies := prerequisites.map campaignMergeDependencyStatus
    ownPullRequestsMerged := !prerequisites.isEmpty && ownMerged item.id }

def snapshot (t : Tables) (h : Hooks) (ownMerged : String → Bool) (campaignId : String) : LedgerSnapshot where
  revision := ((t.ledgers.get campaignId).map LedgerRow.revision).getD 0
  items := t.itemsOf campaignId
  attempts := t.attemptsOf campaignId
  verifications := t.verificationsOf campaignId
  deliveries := t.deliveriesOf campaignId
  derived := deriveCampaignWorkItemStates ((t.itemsOf campaignId).map (stateRecord t h ownMerged campaignId))
  repositories := fun id => (t.item campaignId id).bind (fun item => campaignItemRepository (itemInput t h campaignId item))

structure ItemElapsed where
  startedAt : Option Int
  endedAt : Option Int
deriving DecidableEq

structure CampaignWorkItemSummary where
  id : String
  key : String
  title : Option String
  issue : Option CampaignIssueRef
  origin : WorkItemOrigin
  generation : Int
  primaryState : PrimaryState
  stateCauses : List StateCause
  commitment : CommitmentState
  dispatchState : DispatchState
  queuePosition : Option Int
  attemptCount : ℕ
  stage : Option ReportedStage
  blocker : Option Blocker
  repository : Option String
  createdAt : Int
  updatedAt : Int
  activityAt : Int
  elapsed : ItemElapsed
  /-- The cost that its reader sees; none is an unavailable one. -/
  cost : Option ℚ

def LedgerSnapshot.stateOf (s : LedgerSnapshot) (id : String) : DerivedState := (s.derived.get id).getD ⟨.planned, []⟩

def summaryView (s : LedgerSnapshot) (cost : String → Option ℚ) (item : ItemRow) : CampaignWorkItemSummary :=
  let attempts := s.attempts item.id
  let latest := attempts.getLast?
  let derived := s.stateOf item.id
  let deliveredAt : Option Int :=
    if derived.state = .delivered then
      (((s.verifications item.id).filter (fun v => latest.any (fun a => v.attemptId == a.id) && decide (v.outcome = .delivered))).getLast?.map
        VerificationRow.verifiedAt).or ((currentDelivery (s.deliveries item.id) latest).map DeliveryRow.recordedAt)
    else none
  { id := item.id
    key := item.itemKey
    title := item.title
    issue := item.issue
    origin := item.origin
    generation := item.generation
    primaryState := derived.state
    stateCauses := derived.causes
    commitment := item.commitment
    dispatchState := item.dispatchState
    queuePosition := item.queuePosition
    attemptCount := attempts.length
    stage := item.stage
    blocker := item.blocker
    repository := s.repositories item.id
    createdAt := item.createdAt
    updatedAt := item.updatedAt
    activityAt := item.updatedAt
    elapsed := ⟨attempts.head?.map AttemptRow.startedAt,
      deliveredAt.or (if derived.state = .cancelled ∨ derived.state = .removed then some item.commitmentChangedAt else none)⟩
    cost := cost item.id }

structure CampaignWorkItemsQuery where
  limit : Option Int
  state : Option String
  origin : Option String
  sort : Option String
  repository : Option String
  cursor : Option Text

structure WorkItemsFilter where
  state : String
  origin : Option String
  sort : String
  repository : Option String

def primaryStateText : PrimaryState → String
  | .planned => "planned"
  | .queued => "queued"
  | .running => "running"
  | .waiting => "waiting"
  | .blocked => "blocked"
  | .delivered => "delivered"
  | .cancelled => "cancelled"
  | .removed => "removed"

def CAMPAIGN_WORK_ITEM_PRIMARY_STATES : List PrimaryState :=
  [.planned, .queued, .running, .waiting, .blocked, .delivered, .cancelled, .removed]

def CAMPAIGN_WORK_ITEM_UNFINISHED_STATES : List PrimaryState := [.planned, .queued, .running, .waiting, .blocked]

def FINISHED_STATES : List PrimaryState := [.delivered, .cancelled, .removed]

def pageSizeDefault : ℕ := 50
def pageSizeMax : ℕ := 100

def pageLimit (limit : Option Int) : Except LedgerError ℕ :=
  match limit with
  | none => .ok pageSizeDefault
  | some limit =>
    if 1 ≤ limit ∧ limit ≤ pageSizeMax then .ok limit.toNat else .error (fail "limit must be an integer from 1 to 100" 400)

def readQuery (q : CampaignWorkItemsQuery) : Except LedgerError (ℕ × WorkItemsFilter) :=
  match pageLimit q.limit with
  | .error e => .error e
  | .ok limit =>
    let state := q.state.getD "unfinished"
    let sort := q.sort.getD "queue"
    if !(["unfinished", "finished", "all"] ++ CAMPAIGN_WORK_ITEM_PRIMARY_STATES.map primaryStateText).contains state then
      .error (fail "state filter is not recognized" 400)
    else if q.origin.any (fun origin => origin != "original" && origin != "follow_up") then
      .error (fail "origin filter must be original or follow_up" 400)
    else if !(["queue", "activity", "elapsed", "cost"].contains sort) then .error (fail "sort is not recognized" 400)
    else if q.repository.any (fun repository => (campaignRepositoryLocation repository).isNone) then
      .error (fail "repository filter must be \"owner/repo\" or \"<gitlab-host>/group/project\"" 400)
    else .ok (limit, ⟨state, q.origin, sort, q.repository.map Js.lower⟩)

def WorkItemsFilter.matchesItem (f : WorkItemsFilter) (summary : CampaignWorkItemSummary) : Bool :=
  f.origin.all (fun origin => summary.origin.text == origin) &&
    f.repository.all (fun repository => summary.repository == some repository) &&
    (if f.state = "all" then true
    else if f.state = "unfinished" then CAMPAIGN_WORK_ITEM_UNFINISHED_STATES.contains summary.primaryState
    else if f.state = "finished" then FINISHED_STATES.contains summary.primaryState
    else primaryStateText summary.primaryState == f.state)

/-! ## Cursors -/

def cursorKey (parts : List (String × Option String)) : Text :=
  Json.stringify (.array (parts.map (fun part => .array [.string (lit part.1), (part.2.map (fun s => Value.string (lit s))).getD .null])))

def WorkItemsFilter.key (f : WorkItemsFilter) : Text :=
  cursorKey ([("list", some "work-items"), ("origin", f.origin)] ++ (given f.repository).toList.map (fun r => ("repository", some r)) ++
    [("sort", some f.sort), ("state", some f.state)])

structure CursorBinding where
  stamp : Option Text
  at_ : Option ℕ

structure ParsedCursor where
  revision : Int
  offset : ℕ
  stamp : Option Value
  at_ : Option ℕ

variable (N : Numerals)

def cursorValue (revision : ℕ) (key : Text) (offset : ℕ) (binding : CursorBinding) : Value :=
  .object [(lit "v", some (.number (N.write 1))), (lit "r", some (.number (N.write revision))), (lit "k", some (.string key)),
    (lit "o", some (.number (N.write offset))), (lit "s", (binding.stamp.filter (fun s => !s.isEmpty)).map .string),
    (lit "t", binding.at_.map (fun at_ : ℕ => .number (N.write at_)))]

def encodeCursor (revision : ℕ) (key : Text) (offset : ℕ) (binding : CursorBinding) : Text :=
  Base64url.write (cursorValue N revision key offset binding)

def safeInteger : Option Value → Option Int
  | some (.number n) => (N.value n).bind (fun q => if q.den = 1 ∧ -9007199254740991 ≤ q ∧ q ≤ 9007199254740991 then some q.num else none)
  | _ => none

def safeNatural (v : Option Value) : Option ℕ := (safeInteger N v).bind (fun n => if 0 ≤ n then some n.toNat else none)

def cursorOf : Value → Option (Text × ParsedCursor)
  | .object m =>
    match safeInteger N (Json.get m (lit "v")), safeInteger N (Json.get m (lit "r")), Json.get m (lit "k"),
        safeNatural N (Json.get m (lit "o")) with
    | some 1, some revision, some (.string k), some offset =>
      match Json.get m (lit "t") with
      | none => some (k, ⟨revision, offset, Json.get m (lit "s"), none⟩)
      | some t => (safeNatural N (some t)).map (fun at_ => (k, ⟨revision, offset, Json.get m (lit "s"), some at_⟩))
    | _, _, _, _ => none
  | _ => none

def parseCursor (cursor : Option Text) (key : Text) : Except LedgerError (Option ParsedCursor) :=
  match cursor with
  | none => .ok none
  | some cursor =>
    match (Base64url.read N.toDouble cursor).bind (cursorOf N) with
    | none => .error (fail "cursor is malformed" 400)
    | some (k, parsed) => if k ≠ key then .error (fail "cursor belongs to a different filter or sort" 400) else .ok (some parsed)

/-- `(stamp ?? undefined) === bound` -/
def sameStamp : Option Value → Option Text → Bool
  | none, bound => bound.isNone
  | some .null, bound => bound.isNone
  | some (.string s), bound => bound == some s
  | some _, _ => false

def staleCursor (revision : ℕ) : LedgerError :=
  .refusal "the campaign ledger changed since this cursor was issued; restart from the first page" 409
    [("code", "revision_changed"), ("revision", toString revision)]

def cursorOffset (cursor : Option ParsedCursor) (revision : ℕ) (binding : CursorBinding) : Except LedgerError ℕ :=
  match cursor with
  | none => .ok 0
  | some cursor =>
    if cursor.revision ≠ revision ∨ sameStamp cursor.stamp binding.stamp = false ∨ cursor.at_ ≠ binding.at_ then
      .error (staleCursor revision)
    else .ok cursor.offset

def measured {α β : Type} [LinearOrder β] (f : α → β) (a b : α) : Ordering :=
  if f a < f b then .lt else if f b < f a then .gt else .eq

section

variable (localeCompare : String → String → Ordering)

def byQueue (a b : CampaignWorkItemSummary) : Ordering :=
  (measured (fun s : CampaignWorkItemSummary => s.queuePosition.getD Js.maxSafeInteger) a b).then
    ((measured CampaignWorkItemSummary.createdAt a b).then (localeCompare a.id b.id))

def CampaignWorkItemSummary.elapsedAt (summary : CampaignWorkItemSummary) (at_ : ℕ) : Int :=
  summary.elapsed.endedAt.getD at_ - summary.elapsed.startedAt.getD summary.createdAt

/-- Highest known cost first; an item with nothing measured yet sorts after every measured one. -/
def CampaignWorkItemSummary.costShown (summary : CampaignWorkItemSummary) : ℚ := summary.cost.getD (-1)

/-- The order of a sort, the elapsed time as of `at_`. -/
def orderOf (sort : String) (at_ : ℕ) (a b : CampaignWorkItemSummary) : Ordering :=
  if sort = "activity" then (measured CampaignWorkItemSummary.activityAt b a).then (byQueue localeCompare a b)
  else if sort = "elapsed" then (measured (CampaignWorkItemSummary.elapsedAt · at_) b a).then (byQueue localeCompare a b)
  else if sort = "cost" then (measured CampaignWorkItemSummary.costShown b a).then (byQueue localeCompare a b)
  else byQueue localeCompare a b

end

/-! ## The page -/

/-- What a call reads besides its query: the ledger, what stands around it, the time, and the costs. -/
structure Reading where
  tables : Tables
  hooks : Hooks
  ownMerged : String → Bool
  now : ℕ
  cost : String → Option ℚ
  wf : Wf tables
  now_safe : now ≤ 9007199254740991
  revision_safe : ∀ c row, tables.ledgers.get c = some row → row.revision ≤ 9007199254740991
  items_safe : tables.items.length ≤ 9007199254740991

structure CampaignWorkItemsPage where
  revision : ℕ
  items : List CampaignWorkItemSummary
  nextCursor : Option Text
  total : ℕ

section

variable (localeCompare : String → String → Ordering) (digest : String → Text) (campaignId : String)

def Reading.snapshot (r : Reading) : LedgerSnapshot := Ledger.snapshot r.tables r.hooks r.ownMerged campaignId

def Reading.matching (r : Reading) (f : WorkItemsFilter) : List CampaignWorkItemSummary :=
  ((r.snapshot campaignId).items.map (summaryView (r.snapshot campaignId) r.cost)).filter f.matchesItem

def Reading.rows (r : Reading) (f : WorkItemsFilter) (at_ : Option ℕ) : List CampaignWorkItemSummary :=
  (r.matching campaignId f).insertionSort (fun a b => (orderOf localeCompare f.sort (at_.getD r.now) a b).isLE = true)

def orderText (orderedIds : List String) : String := campaignId ++ ":" ++ ",".intercalate orderedIds

/-- `digest` is the keyed hash as base64url text. -/
def orderStamp (orderedIds : List String) : Text := (digest (orderText campaignId orderedIds)).take 22

def bindingOf (f : WorkItemsFilter) (at_ : Option ℕ) (rows : List CampaignWorkItemSummary) : CursorBinding where
  stamp := if f.sort = "cost" then some (orderStamp digest campaignId (rows.map CampaignWorkItemSummary.id)) else none
  at_ := at_

/-- What `page` does once its query and its cursor were read, its order evaluated at `at_`. -/
def pageAt (limit : ℕ) (f : WorkItemsFilter) (cursor : Option ParsedCursor) (r : Reading) (at_ : Option ℕ) :
    Except LedgerError CampaignWorkItemsPage :=
  let rows := r.rows localeCompare campaignId f at_
  let binding := bindingOf digest campaignId f at_ rows
  match cursorOffset cursor (r.snapshot campaignId).revision binding with
  | .error e => .error e
  | .ok offset =>
    let items := (rows.drop offset).take limit
    let stop := offset + items.length
    .ok {
      revision := (r.snapshot campaignId).revision
      items := items
      nextCursor := if stop < rows.length then some (encodeCursor N (r.snapshot campaignId).revision f.key stop binding) else none
      total := rows.length }

def page (q : CampaignWorkItemsQuery) (r : Reading) : Except LedgerError CampaignWorkItemsPage :=
  match readQuery q with
  | .error e => .error e
  | .ok (limit, f) =>
    match parseCursor N q.cursor f.key with
    | .error e => .error e
    | .ok cursor =>
      -- every later page of an elapsed order is ordered at the time of its first page
      pageAt N localeCompare digest campaignId limit f cursor r
        (if f.sort = "elapsed" then some ((cursor.bind ParsedCursor.at_).getD r.now) else none)

inductive Ending
  | ended
  | refused (e : LedgerError)
  /-- There is a further page. -/
  | further

/-- The pages of a chain that follows its cursors, the `n`-th call reading `calls n`; at most `fuel` of them. -/
def chain (q : CampaignWorkItemsQuery) (calls : ℕ → Reading) : ℕ → ℕ → Option Text → List CampaignWorkItemsPage × Ending
  | 0, _, _ => ([], .further)
  | fuel + 1, n, cursor =>
    match page N localeCompare digest campaignId { q with cursor := cursor } (calls n) with
    | .error e => ([], .refused e)
    | .ok p =>
      match p.nextCursor with
      | none => ([p], .ended)
      | some next => (p :: (chain q calls fuel (n + 1) (some next)).1, (chain q calls fuel (n + 1) (some next)).2)

end

section

variable {N}

theorem safeInteger_write {n : ℕ} (h : n ≤ 9007199254740991) : safeInteger N (some (.number (N.write n))) = some (n : ℤ) := by
  have hcap : (n : ℚ) ≤ 9007199254740991 := by exact_mod_cast h
  have hpositive : (0 : ℚ) ≤ n := Nat.cast_nonneg n
  rw [safeInteger, N.value_write _ (N.held_nat n h), Option.bind_some,
    if_pos ⟨Rat.den_natCast n, (by norm_num : (-9007199254740991 : ℚ) ≤ 0).trans hpositive, hcap⟩, Rat.num_natCast]

theorem safeNatural_write {n : ℕ} (h : n ≤ 9007199254740991) : safeNatural N (some (.number (N.write n))) = some n := by
  rw [safeNatural, safeInteger_write h, Option.bind_some, if_pos (Int.natCast_nonneg n), Int.toNat_natCast]

def carriedStamp (stamp : Option Text) : Option Value := (stamp.filter (fun s => !s.isEmpty)).map .string

theorem sameStamp_carried {stamp bound : Option Text} (h : sameStamp (carriedStamp stamp) bound = true) : stamp = bound ∨ bound = none := by
  unfold carriedStamp at h
  cases hkept : stamp.filter (fun s => !s.isEmpty) with
  | none =>
    rw [hkept] at h
    exact .inr (Option.isNone_iff_eq_none.1 h)
  | some s =>
    rw [hkept] at h
    rw [(Option.filter_eq_some_iff.1 hkept).1]
    exact .inl (eq_of_beq h).symm

theorem parseCursor_encode {revision offset : ℕ} {key : Text} {binding : CursorBinding} (hrevision : revision ≤ 9007199254740991)
    (hoffset : offset ≤ 9007199254740991) (hat : ∀ at_, binding.at_ = some at_ → at_ ≤ 9007199254740991) :
    parseCursor N (some (encodeCursor N revision key offset binding)) key =
      .ok (some ⟨revision, offset, carriedStamp binding.stamp, binding.at_⟩) := by
  obtain ⟨stamp, at_⟩ := binding
  set members : List (Text × Option Value) := [(lit "v", some (.number (N.write 1))), (lit "r", some (.number (N.write revision))),
    (lit "k", some (.string key)), (lit "o", some (.number (N.write offset))), (lit "s", carriedStamp stamp),
    (lit "t", at_.map (fun at_ : ℕ => .number (N.write at_)))] with hmembers
  have hvalue : cursorValue N revision key offset ⟨stamp, at_⟩ = .object members := rfl
  have hkeys : (members.map Prod.fst).Nodup := by
    have hnames : members.map Prod.fst = [lit "v", lit "r", lit "k", lit "o", lit "s", lit "t"] := rfl
    rw [hnames]
    decide
  have hheld : ∀ {n : ℕ}, n ≤ 9007199254740991 → N.toDouble (N.write n) = N.write n := fun h => N.toDouble_write _ (N.held_nat _ h)
  have hone : N.toDouble (N.write 1) = N.write 1 := by
    have h := hheld (n := 1) (by decide)
    rwa [Nat.cast_one] at h
  have hwf : (Value.object members).Wf N.toDouble := by
    refine ⟨hkeys, Json.wfMembers_iff.2 ?_⟩
    rintro ⟨k, v⟩ hdefined
    have hmem := Json.mem_defined.1 hdefined
    simp only [hmembers, List.mem_cons, List.not_mem_nil, or_false, Prod.mk.injEq, Option.some.injEq] at hmem
    rcases hmem with ⟨-, rfl⟩ | ⟨-, rfl⟩ | ⟨-, rfl⟩ | ⟨-, rfl⟩ | ⟨-, hstamp⟩ | ⟨-, htime⟩
    · exact hone
    · exact hheld hrevision
    · trivial
    · exact hheld hoffset
    · obtain ⟨s, -, rfl⟩ := Option.map_eq_some_iff.1 hstamp.symm
      trivial
    · obtain ⟨time, hsome, rfl⟩ := Option.map_eq_some_iff.1 htime.symm
      exact hheld (hat time hsome)
  have hget : ∀ {k : Text} {o : Option Value}, (k, o) ∈ members →
      Json.get (Json.arrangedMembers id members) k = o.map (Json.arranged id) := fun {k o} hmem => by
    rw [Json.get_arranged hkeys k, Json.get_of_mem hkeys hmem]
  have hv : Json.get (Json.arrangedMembers id members) (lit "v") = some (.number (N.write 1)) :=
    hget (o := some (.number (N.write 1))) (by simp [hmembers])
  have hr : Json.get (Json.arrangedMembers id members) (lit "r") = some (.number (N.write revision)) :=
    hget (o := some (.number (N.write revision))) (by simp [hmembers])
  have hk : Json.get (Json.arrangedMembers id members) (lit "k") = some (.string key) :=
    hget (o := some (.string key)) (by simp [hmembers])
  have ho : Json.get (Json.arrangedMembers id members) (lit "o") = some (.number (N.write offset)) :=
    hget (o := some (.number (N.write offset))) (by simp [hmembers])
  have hs : Json.get (Json.arrangedMembers id members) (lit "s") = carriedStamp stamp := by
    rw [hget (o := carriedStamp stamp) (by simp [hmembers])]
    unfold carriedStamp
    cases stamp.filter (fun s => !s.isEmpty) <;> rfl
  have ht : Json.get (Json.arrangedMembers id members) (lit "t") = at_.map (fun at_ : ℕ => .number (N.write at_)) := by
    rw [hget (o := at_.map (fun at_ : ℕ => .number (N.write at_))) (by simp [hmembers])]
    cases at_ <;> rfl
  have hversion : safeInteger N (some (.number (N.write 1))) = some 1 := by
    have h := safeInteger_write (N := N) (n := 1) (by decide)
    rwa [Nat.cast_one] at h
  have hcursor : cursorOf N (.object (Json.arrangedMembers id members)) = some (key, ⟨revision, offset, carriedStamp stamp, at_⟩) := by
    rw [cursorOf, hv, hr, hk, ho, hs, ht, hversion, safeInteger_write hrevision, safeNatural_write hoffset]
    cases at_ with
    | none => rfl
    | some time =>
      dsimp only [Option.map_some]
      rw [safeNatural_write (hat time rfl)]
      rfl
  have hread : (Base64url.read N.toDouble (encodeCursor N revision key offset ⟨stamp, at_⟩)).bind (cursorOf N) =
      some (key, ⟨revision, offset, carriedStamp stamp, at_⟩) := by
    rw [encodeCursor, hvalue, Base64url.read_write hwf, Option.bind_some]
    exact hcursor
  rw [parseCursor]
  dsimp only
  rw [hread]
  exact if_neg (not_not.2 rfl)

end

section

variable {α β : Type} [LinearOrder β]

theorem measured_isLE {f : α → β} {a b : α} : (measured f a b).isLE = true ↔ f a ≤ f b := by
  unfold measured
  split
  · rename_i h
    exact ⟨fun _ => le_of_lt h, fun _ => rfl⟩
  · split
    · rename_i h
      exact ⟨fun hle => (by cases hle), fun hle => absurd hle (not_le.2 h)⟩
    · rename_i h
      exact ⟨fun _ => not_lt.1 h, fun _ => rfl⟩

theorem measured_trans (f : α → β) : Std.TransCmp (measured f) where
  eq_swap {a b} := by
    unfold measured
    rcases lt_trichotomy (f a) (f b) with h | h | h
    · rw [if_pos h, if_neg h.not_gt, if_pos h]
      rfl
    · rw [if_neg h.not_lt, if_neg h.not_gt, if_neg h.not_gt, if_neg h.not_lt]
      rfl
    · rw [if_neg h.not_gt, if_pos h, if_pos h]
      rfl
  isLE_trans hab hbc := measured_isLE.2 ((measured_isLE.1 hab).trans (measured_isLE.1 hbc))

end

section

variable (localeCompare : String → String → Ordering)

theorem byQueue_trans [Std.TransCmp localeCompare] : Std.TransCmp (byQueue localeCompare) := by
  have hposition := measured_trans (fun s : CampaignWorkItemSummary => s.queuePosition.getD Js.maxSafeInteger)
  have hcreated := measured_trans CampaignWorkItemSummary.createdAt
  have hid : Std.TransCmp (fun a b : CampaignWorkItemSummary => localeCompare a.id b.id) :=
    { eq_swap := Std.OrientedCmp.eq_swap, isLE_trans := Std.TransCmp.isLE_trans }
  exact inferInstanceAs (Std.TransCmp (compareLex (measured (fun s : CampaignWorkItemSummary => s.queuePosition.getD Js.maxSafeInteger))
    (compareLex (measured CampaignWorkItemSummary.createdAt) (fun a b => localeCompare a.id b.id))))

theorem descending_trans [Std.TransCmp localeCompare] {β : Type} [LinearOrder β] (f : CampaignWorkItemSummary → β) :
    Std.TransCmp (fun a b => (measured f b a).then (byQueue localeCompare a b)) := by
  have hmeasured := measured_trans f
  have hqueue := byQueue_trans localeCompare
  exact inferInstanceAs (Std.TransCmp (compareLex (fun a b => measured f b a) (byQueue localeCompare)))

theorem orderOf_trans [Std.TransCmp localeCompare] (sort : String) (at_ : ℕ) : Std.TransCmp (orderOf localeCompare sort at_) := by
  have horder : orderOf localeCompare sort at_ = if sort = "activity" then
      (fun a b => (measured CampaignWorkItemSummary.activityAt b a).then (byQueue localeCompare a b))
    else if sort = "elapsed" then
      (fun a b => (measured (CampaignWorkItemSummary.elapsedAt · at_) b a).then (byQueue localeCompare a b))
    else if sort = "cost" then (fun a b => (measured CampaignWorkItemSummary.costShown b a).then (byQueue localeCompare a b))
    else byQueue localeCompare := by
    funext a b
    unfold orderOf
    split
    · rfl
    · split
      · rfl
      · split <;> rfl
  rw [horder]
  split
  · exact descending_trans localeCompare _
  · split
    · exact descending_trans localeCompare _
    · split
      · exact descending_trans localeCompare _
      · exact byQueue_trans localeCompare

end

end Wollipog.Ledger

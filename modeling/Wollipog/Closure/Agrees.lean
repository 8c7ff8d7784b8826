import Wollipog.Closure.Evidence
/-!
# Agrees — what kept a closure from being proven, and the proof and the gaps

The gaps name what failed; the proof never reads them.  A closure is proven exactly when its derivation adds no gap.
-/
namespace Wollipog.Closure

open Authority Scope

inductive GapCode
  | openRelatedPullRequests | noWorkItem | missingWorkItem | workItemOutsideScope | attemptAwaitingVerification | attemptOpen
  | noDeliveredVerification | workItemNotDelivered | noMergedDeliveryPullRequest | unmergedPullRequest | stalePullRequest
  | pullRequestOutsideRepository | deliveryNotVerifiedAtExactHead | deliveryMergeUnconfirmed | fixedByCompletionOnly
  | dispositionUnverified | commentUnsafe | deliveryUnverified | epicMemberOpen | epicMemberNotCompleted
  | epicMemberOutsideScope | epicMemberUnreadable | epicMembersUnreadable
  deriving DecidableEq

structure Gap where
  code : GapCode
  workItemId : Option String := none
  pullRequests : List Nat := []
  members : List Int := []
  repository : Option String := none
  deriving DecidableEq

def issueClosureDeliveryGapsMax : Nat := 32

def add (gaps : List Gap) (gap : Gap) : List Gap := if gaps.length < issueClosureDeliveryGapsMax then gaps ++ [gap] else gaps

def addIf (condition : Bool) (gap : Gap) (gaps : List Gap) : List Gap := if condition then add gaps gap else gaps

abbrev Found := List Gap × List Gap

/-- The pull requests of one repository that say `v`. -/
def saying (verdicts : List (DeliveryCandidate × Verdict)) (repository : String) (v : Verdict) : List Nat :=
  (verdicts.filter (fun e => Js.lower e.1.ref.repository == repository && e.2 == v)).map (fun e => e.1.ref.number)

def candidateRepositories (own : String) (verdicts : List (DeliveryCandidate × Verdict)) : List String :=
  (own :: (verdicts.filter (fun e => e.2 != .outside)).map (fun e => Js.lower e.1.ref.repository)).eraseDups

def repositoryGaps (item : WorkItem) (own : String) (verdicts : List (DeliveryCandidate × Verdict)) (found : Found) (repository : String) :
    Found :=
  let named := if repository = own then none else some repository
  let gap (code : GapCode) (numbers : List Nat) : Gap := { code := code, workItemId := some item.id, pullRequests := numbers, repository := named }
  let stale := saying verdicts repository .stale
  let opened := saying verdicts repository .unmerged
  let wrongHead := saying verdicts repository .wrongHead
  let unverified := saying verdicts repository .unverified
  (addIf (!wrongHead.isEmpty) (gap .deliveryNotVerifiedAtExactHead wrongHead)
      (addIf (!opened.isEmpty) (gap .unmergedPullRequest opened) (addIf (!stale.isEmpty) (gap .stalePullRequest stale) found.1)),
    if unverified.isEmpty then found.2 else found.2 ++ [gap .deliveryMergeUnconfirmed unverified])

def candidateGaps (item : WorkItem) (own : String) (verdicts : List (DeliveryCandidate × Verdict)) (found : Found) : Found :=
  let outside := (verdicts.filter (fun e => e.2 == .outside)).map (fun e => e.1.ref.number)
  let gaps := addIf (!outside.isEmpty) { code := .pullRequestOutsideRepository, workItemId := some item.id, pullRequests := outside } found.1
  let after := (candidateRepositories own verdicts).foldl (repositoryGaps item own verdicts) (gaps, found.2)
  (addIf (!verdicts.any (fun e => e.2 == .unverified) && !verdicts.any (fun e => e.2 == .merged) && after.1.length == found.1.length)
      { code := .noMergedDeliveryPullRequest, workItemId := some item.id } after.1, after.2)

def itemGaps (db : Db) (root : Root) (snapshot : Snapshot) (found : Found) (item : WorkItem) : Found :=
  if item.currentAttempt.isSome then
    (add found.1 { code := if item.awaitingVerification then .attemptAwaitingVerification else .attemptOpen, workItemId := some item.id }, found.2)
  else if !deliveredVerification item then (add found.1 { code := .noDeliveredVerification, workItemId := some item.id }, found.2)
  else if item.primaryState != .delivered then (add found.1 { code := .workItemNotDelivered, workItemId := some item.id }, found.2)
  else candidateGaps item (Js.lower snapshot.repository) (verdicts db root snapshot item) found

def itemGapsInto (db : Db) (root : Root) (snapshot : Snapshot) (items : List WorkItem) (gaps : List Gap) : List Gap :=
  let found := items.foldl (itemGaps db root snapshot) (gaps, [])
  if found.1.isEmpty then found.2.foldl add found.1 else found.1

/-! ## The gaps of a closure -/

def citedGaps (db : Db) (root : Root) (repository : String) (read : List WorkItem × List Gap) (id : String) : List WorkItem × List Gap :=
  match db.detail id with
  | none => (read.1, add read.2 { code := .missingWorkItem, workItemId := some id })
  | some item =>
    if citedInScope root repository item then (read.1 ++ [item], read.2)
    else (read.1, add read.2 { code := .workItemOutsideScope, workItemId := some id })

def dispositionGaps (db : Db) (snapshot : Snapshot) (items : List WorkItem) (gaps : List Gap) : List Gap :=
  items.foldl (fun gaps item => addIf (notDisposed item) { code := .dispositionUnverified, workItemId := some item.id } gaps)
    (addIf (dispositionFails db snapshot items) { code := .dispositionUnverified } gaps)

def workGaps (db : Db) (root : Root) (snapshot : Snapshot) (items : List WorkItem) (gaps : List Gap) : List Gap :=
  match snapshot.reason with
  | .notPlanned => dispositionGaps db snapshot items gaps
  | .completed => itemGapsInto db root snapshot items gaps

def openGaps (snapshot : Snapshot) (gaps : List Gap) : List Gap :=
  addIf (!snapshot.openPullRequests.isEmpty) { code := .openRelatedPullRequests, pullRequests := snapshot.openPullRequests } gaps

/-- The gaps of the cited items with the ledger's own, where `uncited` says that no plan cites any. -/
def trackedGaps (db : Db) (root : Root) (snapshot : Snapshot) (uncited : Bool) (cited : List WorkItem × List Gap) : List Gap :=
  match trackedIssueWork db snapshot.issue snapshot.repository with
  | none => add cited.2 { code := .deliveryUnverified }
  | some tracked =>
    let items := tracked.foldl addNew cited.1
    if items.isEmpty then
      addIf uncited { code := if snapshot.reason = .notPlanned then .dispositionUnverified else .noWorkItem } cited.2
    else workGaps db root snapshot items cited.2

def deliveryGapsInto (db : Db) (root : Root) (snapshot : Snapshot) (gaps : List Gap) : List Gap :=
  let relationship := db.fixedBy snapshot.repository snapshot.issue
  let opened := addIf (relationship.isSome && snapshot.reason != .completed) { code := .fixedByCompletionOnly } (openGaps snapshot gaps)
  trackedGaps db root snapshot (relationship.getD []).isEmpty
    ((relationship.getD []).foldl (citedGaps db root snapshot.repository) ([], opened))

def memberGaps (root : Root) (snapshot : Snapshot) (read : EpicMembers) (gaps : List Gap) (entry : MemberState × GapCode) : List Gap :=
  let members := (read.members.filter (fun m => memberInScope root snapshot m.number && m.state == entry.1)).map Member.number
  addIf (!members.isEmpty) { code := entry.2, members := members } gaps

def epicGapsInto (db : Db) (root : Root) (snapshot : Snapshot) (read : EpicMembers) (gaps : List Gap) : List Gap :=
  let opened := openGaps snapshot gaps
  if !read.readable then add opened { code := .epicMembersUnreadable }
  else if !epicSourceApplies db snapshot then add opened { code := .deliveryUnverified }
  else
    let outside := (read.members.filter (fun m => !memberInScope root snapshot m.number)).map Member.number
    let inside := addIf (!outside.isEmpty) { code := .epicMemberOutsideScope, members := outside } opened
    let stated := [(MemberState.opened, GapCode.epicMemberOpen), (.closedNotCompleted, .epicMemberNotCompleted),
      (.unreadable, .epicMemberUnreadable)].foldl (memberGaps root snapshot read) inside
    match trackedIssueWork db snapshot.issue snapshot.repository with
    | none => add stated { code := .deliveryUnverified }
    | some own => itemGapsInto db root snapshot (own.filter (fun item => !epicPlaceholderItem item)) stated

def derivedGaps (db : Db) (root : Root) (snapshot : Snapshot) : List Gap :=
  match snapshot.epicMembers with
  | some read => epicGapsInto db root snapshot read []
  | none => deliveryGapsInto db root snapshot []

structure Checked where
  proven : Bool
  commentSafe : Bool
  membersUnreadable : Bool

def closureDeliveryGaps (db : Db) (root : Root) (snapshot : Snapshot) (checked : Checked) : Option (List Gap) :=
  if !root.delegates snapshot then none
  else
    let derived := if checked.proven then [] else derivedGaps db root snapshot
    let members := addIf (!checked.proven && snapshot.epicMembers.isNone && checked.membersUnreadable) { code := .epicMembersUnreadable } derived
    let comment := addIf (!checked.commentSafe) { code := .commentUnsafe } members
    some (addIf comment.isEmpty { code := .deliveryUnverified } comment)

end Wollipog.Closure

/-! ## The proof and the gaps

Each function that adds gaps adds none exactly when its part of the proof holds.
-/
namespace Wollipog.Closure

open Authority Scope

variable {db : Db} {root : Root} {snapshot : Snapshot} {item : WorkItem} {items : List WorkItem} {gaps : List Gap} {gap : Gap}
  {found : Found} {vs : List (DeliveryCandidate × Verdict)} {own : String}

theorem add_ne_nil (gaps : List Gap) (gap : Gap) : add gaps gap ≠ [] := by
  unfold add
  split
  · exact List.append_ne_nil_of_right_ne_nil _ (List.cons_ne_nil _ _)
  · rename_i hfull
    rintro rfl
    exact hfull (by decide)

theorem addIf_eq_nil {condition : Bool} : addIf condition gap gaps = [] ↔ condition = false ∧ gaps = [] := by
  unfold addIf
  cases condition with
  | false => simp
  | true => simp [add_ne_nil]

theorem foldl_add_eq_nil {more : List Gap} : more.foldl add gaps = [] ↔ gaps = [] ∧ more = [] := by
  induction more generalizing gaps with
  | nil => simp
  | cons g more ih =>
    rw [List.foldl_cons, ih]
    simp [add_ne_nil]

theorem foldl_eq_iff {α β : Type} {f : β → α → β} {z : β} {P : α → Prop} : ∀ {l : List α} {b : β},
    (∀ a ∈ l, ∀ b, f b a = z ↔ b = z ∧ P a) → (l.foldl f b = z ↔ b = z ∧ ∀ a ∈ l, P a)
  | [], b, _ => by simp
  | a :: l, b, hstep => by
    rw [List.foldl_cons, foldl_eq_iff (fun a' ha' => hstep a' (List.mem_cons_of_mem _ ha')), hstep a List.mem_cons_self,
      List.forall_mem_cons, and_assoc]

def Silent (vs : List (DeliveryCandidate × Verdict)) (repository : String) : Prop :=
  ∀ v ∈ [Verdict.stale, .unmerged, .wrongHead, .unverified], saying vs repository v = []

variable {repository : String}

theorem repositoryGaps_eq_nil :
    repositoryGaps item own vs found repository = ([], []) ↔ found = ([], []) ∧ Silent vs repository := by
  unfold repositoryGaps Silent
  obtain ⟨gaps, unconfirmed⟩ := found
  simp only [Prod.mk.injEq, addIf_eq_nil, Bool.not_eq_false', List.isEmpty_iff, List.forall_mem_cons, List.not_mem_nil,
    false_implies, implies_true, and_true]
  by_cases hunverified : saying vs repository .unverified = []
  · rw [if_pos hunverified]
    tauto
  · rw [if_neg hunverified]
    simp [hunverified]

theorem saying_eq_nil {v : Verdict} :
    saying vs repository v = [] ↔ ∀ e ∈ vs, Js.lower e.1.ref.repository = repository → e.2 ≠ v := by
  unfold saying
  simp only [List.map_eq_nil_iff, List.filter_eq_nil_iff, Bool.and_eq_true, beq_iff_eq, not_and]

theorem mem_candidateRepositories {e : DeliveryCandidate × Verdict} (he : e ∈ vs) (hinside : e.2 ≠ .outside) :
    Js.lower e.1.ref.repository ∈ candidateRepositories own vs := by
  unfold candidateRepositories
  rw [List.mem_eraseDups]
  refine List.mem_cons_of_mem _ (List.mem_map.2 ⟨e, List.mem_filter.2 ⟨he, ?_⟩, rfl⟩)
  exact bne_iff_ne.2 hinside

theorem silent_iff : (∀ repository ∈ candidateRepositories own vs, Silent vs repository) ↔
    ∀ e ∈ vs, e.2 = .merged ∨ e.2 = .excluded ∨ e.2 = .outside := by
  constructor
  · intro hsilent e he
    by_contra hnot
    have hinside : e.2 ≠ .outside := fun h => hnot (.inr (.inr h))
    have hrepository := hsilent _ (mem_candidateRepositories he hinside)
    have hsaid : ∀ v ∈ [Verdict.stale, .unmerged, .wrongHead, .unverified], e.2 ≠ v :=
      fun v hv => saying_eq_nil.1 (hrepository v hv) e he rfl
    cases hv : e.2 with
    | merged => exact hnot (.inl hv)
    | excluded => exact hnot (.inr (.inl hv))
    | outside => exact hnot (.inr (.inr hv))
    | stale => exact hsaid .stale (by simp) hv
    | unmerged => exact hsaid .unmerged (by simp) hv
    | wrongHead => exact hsaid .wrongHead (by simp) hv
    | unverified => exact hsaid .unverified (by simp) hv
  · intro hall repository _ v hv
    refine saying_eq_nil.2 (fun e he _ heq => ?_)
    rcases hall e he with h | h | h <;> rw [heq] at h <;> subst h <;> simp at hv

/-- **The candidates of an item** give no gap exactly when they prove its delivery. -/
theorem candidateGaps_eq_nil : candidateGaps item own vs found = ([], []) ↔ found = ([], []) ∧ mergesProven vs = true := by
  unfold candidateGaps mergesProven
  obtain ⟨gaps, unconfirmed⟩ := found
  simp only
  set outside := (vs.filter (fun e => e.2 == .outside)).map (fun e => e.1.ref.number) with houtside
  set start := addIf (!outside.isEmpty) { code := .pullRequestOutsideRepository, workItemId := some item.id, pullRequests := outside } gaps
    with hstart
  set after := (candidateRepositories own vs).foldl (repositoryGaps item own vs) (start, unconfirmed) with hafter
  have hfold : after = ([], []) ↔ (start, unconfirmed) = (([] : List Gap), ([] : List Gap)) ∧
      ∀ repository ∈ candidateRepositories own vs, Silent vs repository :=
    foldl_eq_iff (fun _ _ _ => repositoryGaps_eq_nil)
  have hinside : outside = [] ↔ ∀ e ∈ vs, e.2 ≠ .outside := by
    rw [houtside, List.map_eq_nil_iff, List.filter_eq_nil_iff]
    simp only [beq_iff_eq, ne_eq]
  have hnone : start = [] ↔ (∀ e ∈ vs, e.2 ≠ .outside) ∧ gaps = [] := by
    rw [hstart, addIf_eq_nil, Bool.not_eq_false', List.isEmpty_iff, hinside]
  rw [silent_iff] at hfold
  simp only [Prod.ext_iff, hnone] at hfold
  rw [Prod.mk.injEq, addIf_eq_nil, Prod.mk.injEq, Bool.and_eq_true, List.all_eq_true, List.any_eq_true]
  simp only [Bool.or_eq_true, beq_iff_eq]
  constructor
  · rintro ⟨⟨hlast, hgaps⟩, hunconfirmed⟩
    obtain ⟨⟨⟨houts, rfl⟩, rfl⟩, hsays⟩ := hfold.1 ⟨hgaps, hunconfirmed⟩
    have hall : ∀ e ∈ vs, e.2 = .merged ∨ e.2 = .excluded := by
      intro e he
      rcases hsays e he with h | h | h
      · exact .inl h
      · exact .inr h
      · exact absurd h (houts e he)
    refine ⟨⟨rfl, rfl⟩, hall, ?_⟩
    by_contra hmerged
    have hunverified : vs.any (fun e => e.2 == .unverified) = false := by
      rw [List.any_eq_false]
      intro e he heq
      rcases hall e he with h | h <;> rw [h] at heq <;> cases heq
    have hnomerge : vs.any (fun e => e.2 == .merged) = false := by
      rw [List.any_eq_false]
      exact fun e he heq => hmerged ⟨e, he, beq_iff_eq.1 heq⟩
    rw [hunverified, hnomerge, hgaps] at hlast
    cases hlast
  · rintro ⟨⟨rfl, rfl⟩, hall, hmerged⟩
    have houts : ∀ e ∈ vs, e.2 ≠ .outside := by
      intro e he heq
      rcases hall e he with h | h <;> rw [h] at heq <;> cases heq
    have hnil := hfold.2 ⟨⟨⟨houts, rfl⟩, rfl⟩, fun e he => (hall e he).imp_right .inl⟩
    have hany : vs.any (fun e => e.2 == .merged) = true := by
      obtain ⟨e, he, heq⟩ := hmerged
      exact List.any_eq_true.2 ⟨e, he, beq_iff_eq.2 heq⟩
    rw [hany, hnil.1, hnil.2]
    simp

theorem itemGaps_eq_nil : itemGaps db root snapshot found item = ([], []) ↔ found = ([], []) ∧ itemDelivered db root item snapshot = true := by
  unfold itemGaps itemDelivered
  by_cases hattempt : item.currentAttempt.isSome = true
  · have hno : item.currentAttempt.isNone = false := by
      rw [← Option.not_isSome, hattempt]
      rfl
    rw [if_pos hattempt, hno]
    simp [add_ne_nil]
  · have hyes : item.currentAttempt.isNone = true := by
      rw [← Option.not_isSome, Bool.eq_false_of_not_eq_true hattempt]
      rfl
    rw [if_neg hattempt, hyes]
    cases hverified : deliveredVerification item with
    | false => simp [add_ne_nil]
    | true =>
      by_cases hstate : item.primaryState = .delivered
      · simp only [hstate, Bool.not_true, Bool.false_eq_true, if_false, bne_self_eq_false, beq_self_eq_true, Bool.true_and]
        exact candidateGaps_eq_nil
      · have hne : (item.primaryState != .delivered) = true := bne_iff_ne.2 hstate
        have hnot : (item.primaryState == .delivered) = false := beq_eq_false_iff_ne.2 hstate
        simp [hne, hnot, add_ne_nil]

/-- **The items** give no gap exactly when each is delivered. -/
theorem itemGapsInto_eq_nil : itemGapsInto db root snapshot items gaps = [] ↔
    gaps = [] ∧ ∀ item ∈ items, itemDelivered db root item snapshot = true := by
  have hfold : items.foldl (itemGaps db root snapshot) (gaps, []) = ([], []) ↔
      (gaps, ([] : List Gap)) = ([], []) ∧ ∀ item ∈ items, itemDelivered db root item snapshot = true :=
    foldl_eq_iff (fun _ _ _ => itemGaps_eq_nil)
  rw [Prod.mk.injEq, Prod.ext_iff] at hfold
  unfold itemGapsInto
  simp only
  split
  · rename_i hempty
    rw [List.isEmpty_iff] at hempty
    rw [foldl_add_eq_nil]
    simpa using hfold
  · rename_i hfull
    rw [List.isEmpty_iff] at hfull
    constructor
    · exact fun h => absurd h hfull
    · rintro ⟨rfl, hall⟩
      exact (hfold.2 ⟨⟨rfl, rfl⟩, hall⟩).1

/-! ## A closure -/

theorem length_addNew (items : List WorkItem) (detail : WorkItem) : items.length ≤ (addNew items detail).length := by
  unfold addNew
  split
  · exact Nat.le_refl _
  · rw [List.length_append]
    exact Nat.le_add_right _ _

theorem foldl_addNew_ne_nil : ∀ {tracked items : List WorkItem}, items ≠ [] → tracked.foldl addNew items ≠ []
  | [], _, hne => hne
  | detail :: tracked, items, hne => by
    have hsome : addNew items detail ≠ [] := by
      intro h
      have hlength := length_addNew items detail
      rw [h, List.length_nil] at hlength
      exact hne (List.eq_nil_of_length_eq_zero (Nat.le_zero.1 hlength))
    rw [List.foldl_cons]
    exact foldl_addNew_ne_nil hsome

theorem citedGaps_read {repository id : String} (hid : (db.detail id).any (citedInScope root repository) = true)
    (read : List WorkItem × List Gap) :
    ∃ item, db.detail id = some item ∧ citedGaps db root repository read id = (read.1 ++ [item], read.2) := by
  obtain ⟨item, hdetail, hscope⟩ := (Option.any_eq_true _ _).1 hid
  refine ⟨item, hdetail, ?_⟩
  unfold citedGaps
  rw [hdetail]
  exact if_pos hscope

theorem citedGaps_gap {repository id : String} (hid : ¬ (db.detail id).any (citedInScope root repository) = true)
    (read : List WorkItem × List Gap) : ∃ gap, citedGaps db root repository read id = (read.1, add read.2 gap) := by
  unfold citedGaps
  cases hdetail : db.detail id with
  | none => exact ⟨_, rfl⟩
  | some item =>
    rw [hdetail, Option.any_some] at hid
    exact ⟨_, if_neg hid⟩

theorem citedGaps_eq_nil : ∀ {ids : List String} {items : List WorkItem} {gaps : List Gap},
    (ids.foldl (citedGaps db root repository) (items, gaps)).2 = [] ↔
      gaps = [] ∧ ∀ id ∈ ids, (db.detail id).any (citedInScope root repository) = true
  | [], _, _ => by simp
  | id :: ids, items, gaps => by
    rw [List.foldl_cons, List.forall_mem_cons]
    by_cases hid : (db.detail id).any (citedInScope root repository) = true
    · obtain ⟨item, _, hread⟩ := citedGaps_read hid (items, gaps)
      rw [hread, citedGaps_eq_nil]
      simp [hid]
    · obtain ⟨gap, hgap⟩ := citedGaps_gap hid (items, gaps)
      rw [hgap, citedGaps_eq_nil]
      simp [add_ne_nil, hid]

theorem citedGaps_items : ∀ {ids : List String} {items : List WorkItem} {gaps : List Gap},
    (∀ id ∈ ids, (db.detail id).any (citedInScope root repository) = true) →
      (ids.foldl (citedGaps db root repository) (items, gaps)).1 = items ++ ids.filterMap db.detail
  | [], items, _, _ => (List.append_nil _).symm
  | id :: ids, items, gaps, hall => by
    obtain ⟨hid, hrest⟩ := List.forall_mem_cons.1 hall
    obtain ⟨item, hdetail, hread⟩ := citedGaps_read hid (items, gaps)
    rw [List.foldl_cons, hread, citedGaps_items hrest, List.filterMap_cons, hdetail, List.append_assoc]
    rfl

theorem openGaps_eq_nil : openGaps snapshot gaps = [] ↔ snapshot.openPullRequests = [] ∧ gaps = [] := by
  unfold openGaps
  rw [addIf_eq_nil, Bool.not_eq_false', List.isEmpty_iff]

theorem dispositionGaps_eq_nil : dispositionGaps db snapshot items gaps = [] ↔
    (dispositionFails db snapshot items = false ∧ gaps = []) ∧ ∀ item ∈ items, notDisposed item = false := by
  have hfold : dispositionGaps db snapshot items gaps = [] ↔
      addIf (dispositionFails db snapshot items) { code := .dispositionUnverified } gaps = [] ∧
        ∀ item ∈ items, notDisposed item = false :=
    foldl_eq_iff (fun _ _ _ => by rw [addIf_eq_nil, and_comm])
  rw [hfold, addIf_eq_nil]

/-- **The work of a closure** gives no gap exactly when it proves it. -/
theorem workGaps_eq_nil (hitems : items ≠ []) :
    workGaps db root snapshot items gaps = [] ↔ gaps = [] ∧ (itemsEvidence db root snapshot items).isSome = true := by
  have hfull : items.isEmpty = false := by
    rw [Bool.eq_false_iff, ne_eq, List.isEmpty_iff]
    exact hitems
  unfold workGaps itemsEvidence
  cases snapshot.reason with
  | notPlanned =>
    simp only
    rw [dispositionGaps_eq_nil, hfull, Bool.or_false]
    have hany : items.any notDisposed = false ↔ ∀ item ∈ items, notDisposed item = false := by
      rw [List.any_eq_false]
      exact forall₂_congr (fun _ _ => iff_of_eq (Bool.not_eq_true _))
    rw [← hany]
    cases dispositionFails db snapshot items <;> cases items.any notDisposed <;> simp
  | completed =>
    simp only
    rw [itemGapsInto_eq_nil, hfull, Bool.false_or]
    have hany : items.any (fun item => !itemDelivered db root item snapshot) = false ↔
        ∀ item ∈ items, itemDelivered db root item snapshot = true := by
      rw [List.any_eq_false]
      refine forall₂_congr (fun _ _ => ?_)
      rw [Bool.not_eq_true', Bool.not_eq_false]
    rw [← hany]
    cases items.any (fun item => !itemDelivered db root item snapshot) <;> simp

theorem itemsEvidence_nil : itemsEvidence db root snapshot [] = none := by
  unfold itemsEvidence
  cases snapshot.reason <;> simp

theorem cited_any {ids : List String} : (ids.map db.detail).any (fun item => !item.any (citedInScope root repository)) = false ↔
      ∀ id ∈ ids, (db.detail id).any (citedInScope root repository) = true := by
  rw [List.any_eq_false, List.forall_mem_map]
  refine forall₂_congr (fun _ _ => ?_)
  rw [Bool.not_eq_true', Bool.not_eq_false]

theorem trackedGaps_eq_nil {uncited : Bool} {cited : List WorkItem × List Gap} (hcited : uncited = true ∨ cited.1 ≠ [] ∨ cited.2 ≠ []) :
    trackedGaps db root snapshot uncited cited = [] ↔
      cited.2 = [] ∧ (itemsEvidence db root snapshot (withTracked db snapshot.issue snapshot.repository cited.1)).isSome = true := by
  unfold trackedGaps withTracked
  cases htracked : trackedIssueWork db snapshot.issue snapshot.repository with
  | none => simp [add_ne_nil, itemsEvidence_nil]
  | some tracked =>
    simp only
    by_cases hempty : tracked.foldl addNew cited.1 = []
    · rw [if_pos (List.isEmpty_iff.2 hempty), hempty, itemsEvidence_nil, addIf_eq_nil]
      have hnot : ¬ (uncited = false ∧ cited.2 = []) := by
        rintro ⟨rfl, hnone⟩
        rcases hcited with h | h | h
        · cases h
        · exact foldl_addNew_ne_nil h hempty
        · exact h hnone
      simp [hnot]
    · have hfull : ¬ (tracked.foldl addNew cited.1).isEmpty = true := fun h => hempty (List.isEmpty_iff.1 h)
      rw [if_neg hfull]
      exact workGaps_eq_nil hempty

def ordinaryEvidence (db : Db) (root : Root) (snapshot : Snapshot) : Option Proof :=
  if snapshot.reason != .completed && (db.fixedBy snapshot.repository snapshot.issue).isSome then none
  else itemsEvidence db root snapshot (issueWork db root snapshot.issue snapshot.repository)

/-- **The ordinary proof** and its gaps. -/
theorem deliveryGapsInto_eq_nil : deliveryGapsInto db root snapshot [] = [] ↔
    snapshot.openPullRequests = [] ∧ (ordinaryEvidence db root snapshot).isSome = true := by
  unfold deliveryGapsInto ordinaryEvidence issueWork
  cases hplan : db.fixedBy snapshot.repository snapshot.issue with
  | none =>
    simp only [Option.getD_none, Option.isSome_none, Bool.false_and, Bool.and_false, List.foldl_nil, List.isEmpty_nil,
      Bool.false_eq_true, if_false]
    rw [trackedGaps_eq_nil (.inl rfl), addIf_eq_nil, openGaps_eq_nil]
    simp
  | some ids =>
    simp only [Option.getD_some, Option.isSome_some, Bool.true_and, Bool.and_true]
    set opened := addIf (snapshot.reason != .completed) { code := .fixedByCompletionOnly } (openGaps snapshot []) with hopened
    have hopen : opened = [] ↔ snapshot.reason = .completed ∧ snapshot.openPullRequests = [] := by
      rw [hopened, addIf_eq_nil, openGaps_eq_nil, bne_eq_false_iff_eq]
      simp
    have hgaps : (ids.foldl (citedGaps db root snapshot.repository) ([], opened)).2 = [] ↔
        opened = [] ∧ ∀ id ∈ ids, (db.detail id).any (citedInScope root snapshot.repository) = true := citedGaps_eq_nil
    by_cases hall : ∀ id ∈ ids, (db.detail id).any (citedInScope root snapshot.repository) = true
    · have hitems : (ids.foldl (citedGaps db root snapshot.repository) ([], opened)).1 = [] ++ ids.filterMap db.detail :=
        citedGaps_items hall
      have hread : ids.isEmpty = true ∨ (ids.foldl (citedGaps db root snapshot.repository) ([], opened)).1 ≠ [] ∨
          (ids.foldl (citedGaps db root snapshot.repository) ([], opened)).2 ≠ [] := by
        cases ids with
        | nil => exact .inl rfl
        | cons id ids =>
          obtain ⟨item, hdetail, _⟩ := citedGaps_read (hall id List.mem_cons_self) ([], opened)
          right
          left
          rw [hitems, List.filterMap_cons, hdetail]
          exact List.cons_ne_nil _ _
      have hscope : ¬ (ids.map db.detail).any (fun item => !item.any (citedInScope root snapshot.repository)) = true := by
        rw [cited_any.2 hall]
        decide
      have hcited : (ids.map db.detail).filterMap id = ids.filterMap db.detail := by
        rw [List.filterMap_map]
        rfl
      rw [trackedGaps_eq_nil hread, hgaps, hitems, hopen, List.nil_append, if_neg hscope, hcited]
      cases hreason : snapshot.reason with
      | completed => simpa using fun _ _ => hall
      | notPlanned => simp
    · have hsome : (ids.foldl (citedGaps db root snapshot.repository) ([], opened)).2 ≠ [] := fun h => hall (hgaps.1 h).2
      rw [trackedGaps_eq_nil (.inr (.inr hsome))]
      have hany : (ids.map db.detail).any (fun item => !item.any (citedInScope root snapshot.repository)) = true :=
        Bool.eq_true_of_not_eq_false (fun h => hall (cited_any.1 h))
      rw [if_pos hany, itemsEvidence_nil]
      simp [hsome]

/-! ## An epic -/

theorem addNew_nodup {detail : WorkItem} (hids : (items.map WorkItem.id).Nodup) : ((addNew items detail).map WorkItem.id).Nodup := by
  unfold addNew
  split
  · exact hids
  · rename_i hnew
    rw [List.map_append, List.map_singleton, ← List.concat_eq_append]
    refine hids.concat (fun hmem => ?_)
    obtain ⟨existing, hexisting, hid⟩ := List.mem_map.1 hmem
    exact hnew (List.any_eq_true.2 ⟨existing, hexisting, beq_iff_eq.2 hid⟩)

variable {issue : Int} {read : EpicMembers}

theorem takeTracked_nodup {row : String × Option CampaignIssueRef} (hids : (items.map WorkItem.id).Nodup) :
    ((takeTracked db issue repository items row).map WorkItem.id).Nodup := by
  unfold takeTracked
  split
  · cases db.detail row.1 with
    | none => exact hids
    | some detail => exact addNew_nodup hids
  · exact hids

theorem page_nodup {issue : Int} : ∀ {page : List (String × Option CampaignIssueRef)} {items : List WorkItem},
    (items.map WorkItem.id).Nodup → ((page.foldl (takeTracked db issue repository) items).map WorkItem.id).Nodup
  | [], _, hids => hids
  | row :: page, items, hids => by
    rw [List.foldl_cons]
    exact page_nodup (takeTracked_nodup hids)

theorem trackedPages_nodup {issue : Int} :
    ∀ {pages : List (Option (List (String × Option CampaignIssueRef)))} {items tracked : List WorkItem},
      (items.map WorkItem.id).Nodup → trackedPages db issue repository pages items = some tracked → (tracked.map WorkItem.id).Nodup
  | [], items, tracked, hids, htracked => by
    cases htracked
    exact hids
  | none :: _, _, _, _, htracked => nomatch htracked
  | some _ :: _, _, _, hids, htracked => trackedPages_nodup (page_nodup hids) htracked

theorem trackedIssueWork_nodup {own : List WorkItem} (hown : trackedIssueWork db issue repository = some own) :
    (own.map WorkItem.id).Nodup := by
  have hnone : (([] : List WorkItem).map WorkItem.id).Nodup := List.nodup_nil
  exact trackedPages_nodup hnone hown

theorem filter_placeholders {own : List WorkItem} (hids : (own.map WorkItem.id).Nodup) :
    own.filter (fun item => !((own.filter epicPlaceholderItem).map WorkItem.id).contains item.id) =
      own.filter (fun item => !epicPlaceholderItem item) := by
  refine List.filter_congr (fun item hitem => congrArg _ ?_)
  rw [Bool.eq_iff_iff, List.contains_iff_mem, List.mem_map]
  constructor
  · rintro ⟨placeholder, hplaceholder, hid⟩
    obtain ⟨hmem, hnever⟩ := List.mem_filter.1 hplaceholder
    obtain rfl := List.inj_on_of_nodup_map hids hmem hitem hid
    exact hnever
  · exact fun hnever => ⟨item, List.mem_filter.2 ⟨hitem, hnever⟩, rfl⟩

def memberFails (root : Root) (snapshot : Snapshot) (member : Member) : Bool :=
  member.state != .completed || !memberInScope root snapshot member.number

theorem memberGaps_eq_nil {entry : MemberState × GapCode} : memberGaps root snapshot read gaps entry = [] ↔
      gaps = [] ∧ ∀ m ∈ read.members, memberInScope root snapshot m.number = true → m.state ≠ entry.1 := by
  unfold memberGaps
  rw [addIf_eq_nil, Bool.not_eq_false', List.isEmpty_iff, List.map_eq_nil_iff, List.filter_eq_nil_iff, and_comm]
  simp only [Bool.and_eq_true, beq_iff_eq, not_and, ne_eq]

/-- **The members** give no gap exactly when each is in scope and closed as completed. -/
theorem members_eq_nil : [(MemberState.opened, GapCode.epicMemberOpen), (.closedNotCompleted, .epicMemberNotCompleted),
        (.unreadable, .epicMemberUnreadable)].foldl (memberGaps root snapshot read)
      (addIf (!((read.members.filter (fun m => !memberInScope root snapshot m.number)).map Member.number).isEmpty)
        { code := .epicMemberOutsideScope,
          members := (read.members.filter (fun m => !memberInScope root snapshot m.number)).map Member.number } gaps) = [] ↔
      gaps = [] ∧ read.members.any (memberFails root snapshot) = false := by
  have houtside : ((read.members.filter (fun m => !memberInScope root snapshot m.number)).map Member.number).isEmpty = true ↔
      ∀ m ∈ read.members, memberInScope root snapshot m.number = true := by
    rw [List.isEmpty_iff, List.map_eq_nil_iff, List.filter_eq_nil_iff]
    exact forall₂_congr (fun _ _ => by rw [Bool.not_eq_true', Bool.not_eq_false])
  have hfold {entries : List (MemberState × GapCode)} {start : List Gap} : entries.foldl (memberGaps root snapshot read) start = [] ↔
      start = [] ∧ ∀ entry ∈ entries, ∀ m ∈ read.members, memberInScope root snapshot m.number = true → m.state ≠ entry.1 :=
    foldl_eq_iff (fun _ _ _ => memberGaps_eq_nil)
  rw [hfold, addIf_eq_nil, Bool.not_eq_false', houtside, List.any_eq_false]
  simp only [List.forall_mem_cons, List.not_mem_nil, false_implies, implies_true, and_true, memberFails, Bool.or_eq_true, bne_iff_ne,
    Bool.not_eq_true', ne_eq, not_or, not_not, Bool.not_eq_false]
  constructor
  · rintro ⟨⟨hscope, hgaps⟩, hopen, hclosed, hread⟩
    refine ⟨hgaps, fun m hm => ⟨?_, hscope m hm⟩⟩
    cases hstate : m.state with
    | completed => rfl
    | opened => exact absurd hstate (hopen m hm (hscope m hm))
    | closedNotCompleted => exact absurd hstate (hclosed m hm (hscope m hm))
    | unreadable => exact absurd hstate (hread m hm (hscope m hm))
  · rintro ⟨hgaps, hall⟩
    have hstate : ∀ {state : MemberState}, state ≠ .completed → ∀ m ∈ read.members,
        memberInScope root snapshot m.number = true → ¬ m.state = state :=
      fun hne m hm _ heq => hne (heq ▸ (hall m hm).1)
    exact ⟨⟨fun m hm => (hall m hm).2, hgaps⟩, hstate (by decide), hstate (by decide), hstate (by decide)⟩

/-- **The proof from an epic's members** and its gaps. -/
theorem epicGapsInto_eq_nil (hmembers : read.readable = true → read.members ≠ []) : epicGapsInto db root snapshot read [] = [] ↔
      snapshot.openPullRequests = [] ∧ (epicMemberEvidence db root snapshot read).isSome = true := by
  unfold epicGapsInto epicMemberEvidence
  simp only
  cases hreadable : read.readable with
  | false => simp [add_ne_nil]
  | true =>
    have hfull : read.members.isEmpty = false := by
      rw [Bool.eq_false_iff, ne_eq, List.isEmpty_iff]
      exact hmembers hreadable
    cases happlies : epicSourceApplies db snapshot with
    | false => simp [add_ne_nil]
    | true =>
      have hfails : (read.members.any (fun member => member.state != .completed || !memberInScope root snapshot member.number)) =
          read.members.any (memberFails root snapshot) := rfl
      simp only [Bool.not_true, Bool.false_eq_true, if_false, hfull, Bool.or_false, Bool.false_or, hfails]
      cases hown : trackedIssueWork db snapshot.issue snapshot.repository with
      | none => simp [add_ne_nil]
      | some own =>
        simp only
        rw [itemGapsInto_eq_nil, members_eq_nil, openGaps_eq_nil, filter_placeholders (trackedIssueWork_nodup hown)]
        set items := own.filter (fun item => !epicPlaceholderItem item)
        have hitems : items.any (fun item => !itemDelivered db root item snapshot) = false ↔
            ∀ item ∈ items, itemDelivered db root item snapshot = true := by
          rw [List.any_eq_false]
          exact forall₂_congr (fun _ _ => by rw [Bool.not_eq_true', Bool.not_eq_false])
        rw [← hitems]
        cases read.members.any (memberFails root snapshot) <;> cases items.any (fun item => !itemDelivered db root item snapshot) <;> simp

/-- **Proof and gaps agree**: a delegated closure is proven exactly when its derivation finds no gap. -/
theorem closure_evidence_iff_no_gap (hdelegated : root.delegates snapshot = true)
    (hmembers : ∀ read, snapshot.epicMembers = some read → read.readable = true → read.members ≠ []) :
    (closureEvidence db root snapshot).isSome = true ↔ derivedGaps db root snapshot = [] := by
  unfold closureEvidence derivedGaps
  rw [hdelegated]
  cases hepic : snapshot.epicMembers with
  | some read =>
    simp only
    rw [epicGapsInto_eq_nil (hmembers read hepic)]
    cases snapshot.openPullRequests <;> simp
  | none =>
    simp only
    rw [deliveryGapsInto_eq_nil, ordinaryEvidence]
    cases snapshot.openPullRequests <;> simp

def sampleRoot : Root where
  orchestratorPolicy := some
    { control := some (.fullControl
        { revision := 1, issueScopeRevision := 1, repository := "acme/site", objective := "Ship the release", authorizedByUserId := "u1",
          authorizedAt := 1, operations := [.category .issueClosure], delegatablePolicyIds := [],
          issueAuthority := some { epics := [7], otherEpics := none, relatedFollowUps := false, maxIssues := 5, closureReasons := [.completed] },
          budgetAuthority := none, evidenceAuthority := none, repositories := none })
      issueScope := some
        { repository := "acme/site", issueNumbers := [7], issues := none, revision := 1, authorizedByUserId := "u1", authorizedAt := 1,
          disposition := none }
      issueNumbers := some [7, 9]
      repositories := none }
  parentControlRevision := some 1

def sampleItem : WorkItem where
  id := "w1"
  issue := some ⟨"acme/site", 7⟩
  primaryState := .delivered
  awaitingVerification := false
  commitment := .committed
  commitmentRecord := ⟨none, none⟩
  currentAttempt := none
  attemptCount := 1
  attempts := [⟨"a1", some "s1", 10, some 20⟩]
  verifications := [⟨"a1", .delivered, "s1", ⟨some "d", some 20⟩⟩]
  pullRequests := [⟨⟨"acme/site", 5⟩, .fresh ⟨.merged, "h", some "m"⟩⟩]

def sampleDb : Db where
  fixedBy := fun _ _ => none
  detail := fun id => if id = "w1" then some sampleItem else none
  pages := [some [("w1", some ⟨"acme/site", 7⟩)]]
  recommendation := fun _ => none
  mergeGates := []
  fact := fun key => if key = ("acme/site", 5) then .fresh ⟨.merged, "h", some "m"⟩ else .unavailable none

def sampleClosure : Snapshot where
  reason := .completed
  repository := "acme/site"
  issue := 7
  openPullRequests := []
  epicMembers := none
  dispositionRecommendationId := none
  delivery := some [⟨5, "h", "m"⟩]
  crossRepositoryDelivery := none

theorem closure_evidence_sample : closureEvidence sampleDb sampleRoot sampleClosure = some (.delivered ["w1"] []) ∧
    derivedGaps sampleDb sampleRoot sampleClosure = [] := by
  have hproven : closureEvidence sampleDb sampleRoot sampleClosure = some (.delivered ["w1"] []) := by decide +kernel
  exact ⟨hproven, (closure_evidence_iff_no_gap (by decide +kernel) (fun _ h => by cases h)).1 (by rw [hproven]; rfl)⟩

end Wollipog.Closure

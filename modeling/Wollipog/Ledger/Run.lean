import Wollipog.Ledger.AttemptWrites
import Wollipog.Lib.Run
/-!
# Run — the runs of the ledger

A run starts from the rows of an earlier version and takes the mutations of every campaign with what the rest of the
control plane writes between them.
-/
namespace Wollipog.Ledger

open Authority (CampaignIssueRef campaignRepositoryLocation)

structure Call where
  hooks : Hooks
  campaignId : String
  actorSessionId : String
  now : Int
  uuids : Nat → Uuid

inductive Request
  | recordPlan (request : RecordCampaignPlanRequest)
  | updateItem (request : UpdateCampaignWorkItemRequest)
  | assign (workItemId childSessionId : String) (snapshot : CampaignAttemptSessionSnapshot)
  | recordVerification (input : VerificationInput)
  | recordDelivery (evidence : CampaignDeliveryEvidence)
  | adjudicate (request : AdjudicateRequest)
deriving DecidableEq

inductive Answer
  | plan (response : RecordCampaignPlanResponse)
  | update (result : UpdateResult)
  | assign (result : AssignResult)
  | verification (result : VerificationResult)
  | delivery (result : DeliveryResult)
  | adjudicate (result : AdjudicateResult)
deriving DecidableEq

def mutate (k : Call) : Request → Ledger Answer
  | .recordPlan request => do
    let r ← recordPlan k.hooks k.campaignId k.actorSessionId k.now k.uuids request
    pure (.plan r)
  | .updateItem request => do
    let r ← updateItem k.hooks k.campaignId k.actorSessionId k.now request
    pure (.update r)
  | .assign workItemId childSessionId snapshot => do
    let r ← assign k.hooks k.campaignId k.actorSessionId k.now (k.uuids 0) workItemId childSessionId snapshot
    pure (.assign r)
  | .recordVerification input => do
    let r ← recordVerification k.hooks k.campaignId k.now (k.uuids 0) input
    pure (.verification r)
  | .recordDelivery evidence => do
    let r ← recordDelivery k.hooks k.campaignId k.actorSessionId k.now k.uuids evidence
    pure (.delivery r)
  | .adjudicate request => do
    let r ← adjudicate k.hooks k.campaignId k.actorSessionId k.now (k.uuids 0) request
    pure (.adjudicate r)

inductive Worked (k : Call) (t u : Tables) : Request → Prop
  | recordPlan {request : RecordCampaignPlanRequest} {r : RecordCampaignPlanResponse} :
      planRefusal t k.campaignId k.actorSessionId request = none →
      planWork k.hooks k.campaignId k.actorSessionId k.now k.uuids request t = (.ok r, u) → Worked k t u (.recordPlan request)
  | updateItem {request : UpdateCampaignWorkItemRequest} {r : UpdateResult} : updateRefusal request = none →
      updateWork k.hooks k.campaignId k.actorSessionId k.now request t = (.ok r, u) → Worked k t u (.updateItem request)
  | assign {workItemId childSessionId : String} {snapshot : CampaignAttemptSessionSnapshot} {r : AssignResult} :
      assignWork k.hooks k.campaignId k.actorSessionId k.now (k.uuids 0) workItemId childSessionId snapshot t = (.ok r, u) →
      Worked k t u (.assign workItemId childSessionId snapshot)
  | recordVerification {input : VerificationInput} {r : VerificationResult} :
      verificationWork k.hooks k.campaignId k.now (k.uuids 0) input t = (.ok r, u) → Worked k t u (.recordVerification input)
  | recordDelivery {evidence : CampaignDeliveryEvidence} {r : DeliveryResult} :
      deliveryWork k.hooks k.campaignId k.actorSessionId k.now k.uuids evidence t = (.ok r, u) → Worked k t u (.recordDelivery evidence)
  | adjudicate {request : AdjudicateRequest} {r : AdjudicateResult} : adjudicateRefusal request = none →
      adjudicateWork k.hooks k.campaignId k.actorSessionId k.now (k.uuids 0) request t = (.ok r, u) → Worked k t u (.adjudicate request)

section

variable {k : Call} {r : Request} {t u : Tables}

/-- **An accepted mutation** did its work, and gave no armed merge an entry it did not have. -/
theorem mutate_ok {a : Answer} (hok : mutate k r t = (.ok a, u)) :
    Worked k t u r ∧ armedRefusal u (armedMergeSignatures t k.hooks k.campaignId (k.hooks.armedMerges k.campaignId))
      (armedMergeSignatures u k.hooks k.campaignId (k.hooks.armedMerges k.campaignId)) = none := by
  cases r with
  | recordPlan request =>
    obtain ⟨r, t₁, hplan, hok⟩ := Tx.bind_ok.1 hok
    obtain ⟨-, rfl⟩ := Tx.pure_ok.1 hok
    unfold recordPlan at hplan
    replace hplan := Tx.bind_read_ok.1 hplan
    obtain ⟨hnone, hplan⟩ := Tx.bind_refuseIf_ok.1 hplan
    obtain ⟨hwork, harmed⟩ := transact_ok hplan
    exact ⟨.recordPlan hnone hwork, harmed⟩
  | updateItem request =>
    obtain ⟨r, t₁, hupdate, hok⟩ := Tx.bind_ok.1 hok
    obtain ⟨-, rfl⟩ := Tx.pure_ok.1 hok
    unfold updateItem at hupdate
    obtain ⟨hnone, hupdate⟩ := Tx.bind_refuseIf_ok.1 hupdate
    obtain ⟨hwork, harmed⟩ := transact_ok hupdate
    exact ⟨.updateItem hnone hwork, harmed⟩
  | assign workItemId childSessionId snapshot =>
    obtain ⟨r, t₁, hassign, hok⟩ := Tx.bind_ok.1 hok
    obtain ⟨-, rfl⟩ := Tx.pure_ok.1 hok
    obtain ⟨hwork, harmed⟩ := transact_ok hassign
    exact ⟨.assign hwork, harmed⟩
  | recordVerification input =>
    obtain ⟨r, t₁, hverify, hok⟩ := Tx.bind_ok.1 hok
    obtain ⟨-, rfl⟩ := Tx.pure_ok.1 hok
    obtain ⟨hwork, harmed⟩ := transact_ok hverify
    exact ⟨.recordVerification hwork, harmed⟩
  | recordDelivery evidence =>
    obtain ⟨r, t₁, hdelivery, hok⟩ := Tx.bind_ok.1 hok
    obtain ⟨-, rfl⟩ := Tx.pure_ok.1 hok
    obtain ⟨hwork, harmed⟩ := transact_ok hdelivery
    exact ⟨.recordDelivery hwork, harmed⟩
  | adjudicate request =>
    obtain ⟨r, t₁, hadjudicate, hok⟩ := Tx.bind_ok.1 hok
    obtain ⟨-, rfl⟩ := Tx.pure_ok.1 hok
    unfold adjudicate at hadjudicate
    obtain ⟨hnone, hadjudicate⟩ := Tx.bind_refuseIf_ok.1 hadjudicate
    obtain ⟨hwork, harmed⟩ := transact_ok hadjudicate
    exact ⟨.adjudicate hnone hwork, harmed⟩

theorem refused_map {α β : Type} {m : Ledger α} {f : α → β} {e : LedgerError}
    (hm : ∀ {e : LedgerError} {u : Tables}, m t = (.error e, u) → u = t)
    (herror : (do let r ← m; pure (f r) : Ledger β) t = (.error e, u)) : u = t := by
  rcases Tx.bind_error.1 herror with h | ⟨x, t₁, -, h⟩
  · exact hm h
  · cases h

theorem refused_check {α : Type} {m : Ledger α} {check : Option LedgerError} {e : LedgerError}
    (hm : ∀ {e : LedgerError} {u : Tables}, m t = (.error e, u) → u = t)
    (herror : (do Tx.refuseIf check; m : Ledger α) t = (.error e, u)) : u = t := by
  rcases Tx.bind_error.1 herror with h | ⟨x, t₁, hcheck, h⟩
  · exact Tx.refuseIf_error h
  · obtain ⟨-, rfl⟩ := Tx.refuseIf_ok.1 hcheck
    exact hm h

/-- **A refused mutation** leaves every table as it was. -/
theorem mutate_error {e : LedgerError} (herror : mutate k r t = (.error e, u)) : u = t := by
  cases r with
  | recordPlan request =>
    refine refused_map ?_ herror
    intro e u hplan
    unfold recordPlan at hplan
    rcases Tx.bind_error.1 hplan with h | ⟨t₁, t₂, hread, h⟩
    · cases h
    · obtain ⟨rfl, rfl⟩ := Tx.read_ok.1 hread
      exact refused_check transact_error h
  | updateItem request => exact refused_map (refused_check transact_error) herror
  | assign workItemId childSessionId snapshot => exact refused_map transact_error herror
  | recordVerification input => exact refused_map transact_error herror
  | recordDelivery evidence => exact refused_map transact_error herror
  | adjudicate request => exact refused_map (refused_check transact_error) herror

theorem Worked.writes (hwf : Wf t) (hw : Worked k t u r) : Writes k.campaignId t u := by
  cases hw with
  | recordPlan _ hwork => exact planWork_writes hwf hwork
  | updateItem hvalid hwork => exact updateWork_writes hwf hvalid hwork
  | assign hwork => exact assignWork_writes hwf hwork
  | recordVerification hwork => exact verificationWork_writes hwf hwork
  | recordDelivery hwork => exact deliveryWork_writes hwf hwork
  | adjudicate _ hwork => exact adjudicateWork_writes hwf hwork

/-- **Every mutation** is a sequence of the writes of its campaign. -/
theorem mutate_writes (hwf : Wf t) : Writes k.campaignId t (mutate k r t).2 := by
  cases hrun : mutate k r t with
  | mk answer u =>
    cases answer with
    | ok a => exact (mutate_ok hrun).1.writes hwf
    | error e =>
      rw [mutate_error hrun]

end

/-! ## What else is written -/

def Tables.recordFollowUp (row : FollowUpRow) (origins : List String) (now : Int) (t : Tables) : Tables :=
  ((First.firstBy id origins).foldl (fun (t : Tables) itemId => t.addOrigin ⟨row.id, itemId⟩) { t with followUps := t.followUps ++ [row] }).bump
    row.campaignSessionId now none

def Tables.renew (campaignId : String) (now : Int) (t : Tables) : Tables :=
  { t with ledgers := t.ledgers.modify campaignId (fun row => { row with revision := row.revision + 1, updatedAt := now }) }

def hasOpenAttempt (t : Tables) (campaignId : String) : Bool :=
  t.attempts.any (fun a => a.campaignSessionId == campaignId && a.ended.isNone)

def Tables.openAttemptsChanged (now : Int) (t : Tables) : Tables :=
  { t with ledgers := t.ledgers.mapVals (fun c row =>
      if hasOpenAttempt t c then { row with revision := row.revision + 1, updatedAt := now } else row) }

def openAttemptsOf (t : Tables) (sessionId : String) : List AttemptRow :=
  t.attempts.filter (fun a => a.sessionId == some sessionId && a.ended.isNone)

def Tables.setSession (id : String) (row : SessionRow) (t : Tables) : Tables :=
  let written := { t with sessions := t.sessions.set id row }
  match t.sessions.get id with
  | none => written
  | some old =>
    if old.status = row.status ∧ old.archived = row.archived then written
    else { written with attemptStatuses := t.attemptStatuses ++
      (openAttemptsOf t id).map (fun a => ⟨a.id, max row.updatedAt a.startedAt, some row.status, row.archived⟩) }

/-- `ON DELETE SET NULL` -/
def unset (id : String) (reference : Option String) : Option String := if reference = some id then none else reference

def ItemRow.unsetSession (id : String) (row : ItemRow) : ItemRow :=
  { row with
    commitmentChangedBy := unset id row.commitmentChangedBy
    stage := row.stage.map (fun s => { s with sourceSessionId := unset id s.sourceSessionId })
    blocker := row.blocker.map (fun b => { b with recordedBy := unset id b.recordedBy })
    createdBySessionId := unset id row.createdBySessionId }

def AttemptRow.unsetSession (id : String) (row : AttemptRow) : AttemptRow :=
  { row with sessionId := unset id row.sessionId, assignedBySessionId := unset id row.assignedBySessionId }

def VerificationRow.unsetSession (id : String) (row : VerificationRow) : VerificationRow :=
  { row with childSessionId := unset id row.childSessionId, verifiedBySessionId := unset id row.verifiedBySessionId }

def DeliveryRow.unsetSession (id : String) (row : DeliveryRow) : DeliveryRow :=
  { row with reportChildSessionId := unset id row.reportChildSessionId, recordedBy := unset id row.recordedBy }

def HandoffRow.unsetSession (id : String) (row : HandoffRow) : HandoffRow := { row with recordedBy := unset id row.recordedBy }

def DispositionRow.unsetSession (id : String) (row : DispositionRow) : DispositionRow :=
  { row with adjudicatedBySessionId := unset id row.adjudicatedBySessionId }

/-- A child session deleted at `now`: references to it are unset, and an open attempt records it. -/
def Tables.deleteSession (id : String) (now : Int) (t : Tables) : Tables :=
  { t with
    sessions := t.sessions.erase id
    ledgers := t.ledgers.mapVals (fun c row => { row with revision := row.revision +
      (t.attempts.filter (fun a => a.campaignSessionId == c && a.sessionId == some id)).length })
    items := t.items.map (ItemRow.unsetSession id)
    attempts := t.attempts.map (AttemptRow.unsetSession id)
    verifications := t.verifications.map (VerificationRow.unsetSession id)
    handoffs := t.handoffs.mapVals (fun _ => HandoffRow.unsetSession id)
    deliveries := t.deliveries.map (DeliveryRow.unsetSession id)
    dispositions := t.dispositions.mapVals (fun _ => DispositionRow.unsetSession id)
    attemptStatuses := t.attemptStatuses ++
      (openAttemptsOf t id).map (fun a => ⟨a.id, max a.startedAt now, none, false⟩) }

/-- What happens to the tables. The session of a deletion is no root. -/
inductive Event
  | mutated (k : Call) (r : Request)
  | recommended (row : FollowUpRow) (origins : List String) (now : Int)
  | observed (campaignId : String) (now : Int)
  | openAttemptsObserved (now : Int)
  | sessionSet (id : String) (row : SessionRow)
  | sessionDeleted (id : String) (now : Int)

def step (t : Tables) : Event → Option (Tables × List Event)
  | .mutated k r => some ((mutate k r t).2, [.mutated k r])
  | .recommended row origins now =>
    if t.followUps.any (fun f => f.id == row.id) || !origins.all (fun i => (t.item row.campaignSessionId i).isSome) then none
    else some (t.recordFollowUp row origins now, [.recommended row origins now])
  | .observed campaignId now => some (t.renew campaignId now, [.observed campaignId now])
  | .openAttemptsObserved now => some (t.openAttemptsChanged now, [.openAttemptsObserved now])
  | .sessionSet id row => some (t.setSession id row, [.sessionSet id row])
  | .sessionDeleted id now =>
    if (t.ledgers.get id).isSome then none else some (t.deleteSession id now, [.sessionDeleted id now])

/-- **What is stored is consistent**: the rows, and the sessions that attempts are of. -/
structure Stored (t : Tables) : Prop where
  wf : Wf t
  sessions : ∀ a ∈ t.attempts, ∀ s, a.sessionId = some s → (t.sessions.get s).isSome = true

structure Earlier (t : Tables) : Prop extends Stored t where
  origins : ∀ o ∈ t.origins, ∃ row ∈ t.items, row.id = o.workItemId
  results : ∀ id d r, t.dispositions.get id = some d → d.resultingWorkItemId = some r → ∃ row ∈ t.items, row.id = r

/-- The rows of an earlier version: their items predate the history, their intervals start now. -/
def Tables.upgraded (now : Int) (t : Tables) : Tables :=
  { t with
    legacyItems := t.items.map ItemRow.id
    issueHistory := []
    lineageEdges := []
    itemTransitions := t.items.map (fun row => transitionOf row now)
    attemptStatuses := (t.attempts.filter (fun a => a.ended.isNone)).map (fun a =>
      ⟨a.id, now, (a.sessionId.bind t.sessions.get).map SessionRow.status,
        ((a.sessionId.bind t.sessions.get).map SessionRow.archived).getD false⟩) }

/-- **The reachable ledgers**: those of every run from what an earlier version stored. -/
def Reachable (t : Tables) : Prop := ∃ t₀ now l, Earlier t₀ ∧ Sys.Run step (t₀.upgraded now) l t

/-! ## What every run keeps -/

section

variable {t u : Tables} {c : String}

theorem setDisposition_frame (id : String) (row : DispositionRow) (t : Tables) : ∃ edges,
    t.setDisposition id row = { t with dispositions := t.dispositions.set id row, lineageEdges := edges } := by
  unfold Tables.setDisposition
  cases row.resultingWorkItemId with
  | none => exact ⟨t.lineageEdges, rfl⟩
  | some result => exact ⟨_, rfl⟩

theorem addOrigin_frame (row : OriginRow) (t : Tables) : ∃ origins edges,
    t.addOrigin row = { t with origins := origins, lineageEdges := edges } := by
  unfold Tables.addOrigin
  split
  · exact ⟨t.origins, t.lineageEdges, rfl⟩
  · simp only
    split
    · exact ⟨_, t.lineageEdges, rfl⟩
    · exact ⟨_, _, rfl⟩

theorem addOrigins_frame (id : String) : ∀ (origins : List String) (t : Tables), ∃ rows edges,
    origins.foldl (fun (t : Tables) itemId => t.addOrigin ⟨id, itemId⟩) t = { t with origins := rows, lineageEdges := edges }
  | [], t => ⟨t.origins, t.lineageEdges, rfl⟩
  | itemId :: origins, t => by
    obtain ⟨rows, edges, heq⟩ := addOrigin_frame ⟨id, itemId⟩ t
    obtain ⟨rows', edges', heq'⟩ := addOrigins_frame id origins (t.addOrigin ⟨id, itemId⟩)
    rw [heq] at heq'
    refine ⟨rows', edges', ?_⟩
    rw [List.foldl_cons, heq, heq']

theorem recordFollowUp_frame (row : FollowUpRow) (origins : List String) (now : Int) (t : Tables) : ∃ rows edges ledgers,
    t.recordFollowUp row origins now =
      { t with followUps := t.followUps ++ [row], origins := rows, lineageEdges := edges, ledgers := ledgers } := by
  obtain ⟨rows, edges, heq⟩ := addOrigins_frame row.id (First.firstBy id origins) { t with followUps := t.followUps ++ [row] }
  unfold Tables.recordFollowUp Tables.bump
  rw [heq]
  exact ⟨_, _, _, rfl⟩

theorem setSession_frame (id : String) (row : SessionRow) (t : Tables) : ∃ statuses,
    t.setSession id row = { t with sessions := t.sessions.set id row, attemptStatuses := statuses } := by
  unfold Tables.setSession
  simp only
  split
  · exact ⟨t.attemptStatuses, rfl⟩
  · split
    · exact ⟨t.attemptStatuses, rfl⟩
    · exact ⟨_, rfl⟩

theorem Write.sessions (hw : Write c t u) : u.sessions = t.sessions := by
  cases hw with
  | addItem row =>
    obtain ⟨history, heq⟩ := addItem_frame row t
    rw [heq]
  | reviseItem i b f => exact reviseItem_sessions i b f t
  | setDisposition id row =>
    obtain ⟨edges, heq⟩ := setDisposition_frame id row t
    rw [heq]
  | _ => rfl

theorem unset_some {id s : String} {reference : Option String} (h : unset id reference = some s) : reference = some s ∧ s ≠ id := by
  unfold unset at h
  split at h
  · cases h
  · rename_i hne
    refine ⟨h, ?_⟩
    rintro rfl
    exact hne h

theorem Stored.congr (hs : Stored t) (hwf : Wf u) (hattempts : u.attempts = t.attempts)
    (hsessions : ∀ s, (t.sessions.get s).isSome = true → (u.sessions.get s).isSome = true) : Stored u := by
  refine ⟨hwf, fun a ha s hsession => ?_⟩
  rw [hattempts] at ha
  exact hsessions s (hs.sessions a ha s hsession)

theorem Write.stored (hw : Write c t u) (hs : Stored t) : Stored u := by
  have hwf := hw.wf hs.wf
  have hsessions := hw.sessions
  have hkeep : u.attempts = t.attempts → Stored u := by
    intro hattempts
    refine hs.congr hwf hattempts (fun s h => ?_)
    rw [hsessions]
    exact h
  cases hw with
  | addItem row =>
    apply hkeep
    obtain ⟨history, heq⟩ := addItem_frame row t
    rw [heq]
  | reviseItem i b f => exact hkeep (reviseItem_attempts i b f t)
  | setDisposition id row =>
    apply hkeep
    obtain ⟨edges, heq⟩ := setDisposition_frame id row t
    rw [heq]
  | addAttempt row sessionId h now hc hitem hsession hended hfree hordinal =>
    refine ⟨hwf, fun a ha s hs' => ?_⟩
    rcases List.mem_append.1 ha with ha | ha
    · exact hs.sessions a ha s hs'
    · rw [List.mem_singleton] at ha
      subst ha
      exact (attemptFree_iff.1 hfree).2 s hs'
  | endAttempt b e =>
    refine ⟨hwf, fun a ha s hs' => ?_⟩
    obtain ⟨a', ha', rfl⟩ := List.mem_map.1 ha
    have hsame : a'.sessionId = some s := by
      split at hs'
      · exact hs'
      · exact hs'
    exact hs.sessions a' ha' s hsame
  | _ => exact hkeep rfl

theorem Writes.stored (hw : Writes c t u) (hs : Stored t) : Stored u := by
  induction hw with
  | refl => exact hs
  | tail _ hlast ih => exact hlast.stored ih

theorem revises_unset (id : String) : Revises (ItemRow.unsetSession id) where
  id := fun _ => rfl
  campaign := fun _ => rfl
  key := fun _ => rfl
  origin := fun _ => rfl
  created := fun _ => rfl
  located := by
    intro r hlocated stage hstage
    cases hold : r.stage with
    | none =>
      unfold ItemRow.unsetSession at hstage
      rw [hold] at hstage
      cases hstage
    | some old =>
      unfold ItemRow.unsetSession at hstage
      rw [hold] at hstage
      cases hstage
      exact hlocated old hold

theorem ages_unset (id : String) : Ages (AttemptRow.unsetSession id) where
  id := fun _ => rfl
  item := fun _ => rfl
  campaign := fun _ => rfl
  ordinal := fun _ => rfl
  ended := fun _ h => h
  session := by
    intro a
    unfold AttemptRow.unsetSession unset
    by_cases ha : a.sessionId = some id
    · exact .inr (if_pos ha)
    · exact .inl (if_neg ha)

theorem Stored.deleteSession (hs : Stored t) (id : String) (now : Int) : Stored (t.deleteSession id now) := by
  constructor
  · have hitems : Wf { t with items := t.items.map (ItemRow.unsetSession id) } := hs.wf.mapItems (revises_unset id) rfl rfl
    exact hitems.ageAttempts (ages_unset id) rfl rfl
  · intro a ha s hsession
    obtain ⟨b, hb, rfl⟩ := List.mem_map.1 ha
    obtain ⟨hb', hne⟩ := unset_some hsession
    have herase : (t.sessions.erase id).get s = t.sessions.get s := by rw [OrdMap.get_erase, if_neg hne]
    show ((t.sessions.erase id).get s).isSome = true
    rw [herase]
    exact hs.sessions b hb s hb'

theorem step_emits {e : Event} {l : List Event} (hstep : step t e = some (u, l)) : l = [e] := by
  cases e with
  | recommended row origins now | sessionDeleted id now =>
    simp only [step] at hstep
    split at hstep
    · cases hstep
    · cases hstep
      rfl
  | _ =>
    cases hstep
    rfl

/-- **Every event keeps what is stored consistent.** -/
theorem step_stored {e : Event} {l : List Event} (hstep : step t e = some (u, l)) (hs : Stored t) : Stored u := by
  cases e with
  | mutated k r =>
    cases hstep
    exact (mutate_writes hs.wf).stored hs
  | recommended row origins now =>
    simp only [step] at hstep
    split at hstep
    · cases hstep
    · cases hstep
      obtain ⟨rows, edges, ledgers, heq⟩ := recordFollowUp_frame row origins now t
      rw [heq]
      exact ⟨hs.wf.congr rfl rfl, hs.sessions⟩
  | observed campaignId now | openAttemptsObserved now =>
    cases hstep
    exact ⟨hs.wf.congr rfl rfl, hs.sessions⟩
  | sessionSet id row =>
    cases hstep
    obtain ⟨statuses, heq⟩ := setSession_frame id row t
    rw [heq]
    refine hs.congr (hs.wf.congr rfl rfl) rfl (fun s h => ?_)
    show ((t.sessions.set id row).get s).isSome = true
    rw [OrdMap.get_set]
    split
    · rfl
    · exact h
  | sessionDeleted id now =>
    simp only [step] at hstep
    split at hstep
    · cases hstep
    · cases hstep
      exact hs.deleteSession id now

theorem Stored.upgraded (hs : Stored t) (now : Int) : Stored (t.upgraded now) := ⟨hs.wf.congr rfl rfl, hs.sessions⟩

/-- **Every reachable ledger is consistent.** -/
theorem Reachable.stored (hr : Reachable t) : Stored t := by
  obtain ⟨t₀, now, l, h₀, hrun⟩ := hr
  exact hrun.inv Stored (fun _ _ _ _ hstep hs => step_stored hstep hs) (h₀.toStored.upgraded now)

theorem Reachable.wf (hr : Reachable t) : Wf t := hr.stored.wf

end

def sampleUuid (c : Char) (hc : Js.isLowerHex c = true) : Uuid :=
  ⟨String.ofList (List.replicate 32 c), by rw [String.toList_ofList, List.length_replicate],
    by
      rw [String.toList_ofList, List.all_replicate]
      simp [hc]⟩

def uuid0 : Uuid := sampleUuid '0' (by decide)

def uuid1 : Uuid := sampleUuid '1' (by decide)

def uuid2 : Uuid := sampleUuid '2' (by decide)

def quietHooks : Hooks where
  armedMerges := fun _ => .empty
  armedMerge := fun _ => false
  admitDispatch := fun _ _ => none
  acceptFollowUp := fun _ _ _ _ => none
  reviseFollowUp := fun _ _ _ => none
  sessionRepository := fun _ _ => none
  campaignRepositories := fun _ => []
  forgePullRequest := fun _ _ => .unavailable .notCollected none
  consumedPullRequestMerges := fun _ => []
  boundary := fun _ => ⟨none, none, none⟩
  held := fun _ => false
  pendingRequests := fun _ => 0

end Wollipog.Ledger

import Wollipog.Ledger.Adjudicate
/-!
# Writes — what one ledger mutation writes

Every mutation is a sequence of the writes of its own campaign (`Write`), each with what the mutation has checked
before it.
-/
namespace Wollipog.Ledger

open Authority (CampaignIssueRef campaignRepositoryLocation)
open Scope (sortBy)

/-! ## The rows a revised item leaves alone -/

section

variable (i : String) (b : Bool) (f : ItemRow → ItemRow) (t : Tables)

theorem reviseItem_frame : ∃ items history transitions,
    t.reviseItem i b f = { t with items := items, issueHistory := history, itemTransitions := transitions } := by
  unfold Tables.reviseItem
  split
  · exact ⟨t.items, t.issueHistory, t.itemTransitions, rfl⟩
  · rename_i old hold
    unfold recordTransition recordIssue
    cases b with
    | false =>
      simp only [Bool.false_eq_true, if_false]
      split
      · exact ⟨_, _, _, rfl⟩
      · exact ⟨_, _, _, rfl⟩
    | true =>
      simp only [if_true]
      cases (f old).issue with
      | none | some issue =>
        simp only
        split
        · exact ⟨_, _, _, rfl⟩
        · exact ⟨_, _, _, rfl⟩

@[simp] theorem reviseItem_attempts : (t.reviseItem i b f).attempts = t.attempts := by
  obtain ⟨_, _, _, heq⟩ := reviseItem_frame i b f t
  rw [heq]

@[simp] theorem reviseItem_dependencies : (t.reviseItem i b f).dependencies = t.dependencies := by
  obtain ⟨_, _, _, heq⟩ := reviseItem_frame i b f t
  rw [heq]

@[simp] theorem reviseItem_dispositions : (t.reviseItem i b f).dispositions = t.dispositions := by
  obtain ⟨_, _, _, heq⟩ := reviseItem_frame i b f t
  rw [heq]

@[simp] theorem reviseItem_origins : (t.reviseItem i b f).origins = t.origins := by
  obtain ⟨_, _, _, heq⟩ := reviseItem_frame i b f t
  rw [heq]

@[simp] theorem reviseItem_followUps : (t.reviseItem i b f).followUps = t.followUps := by
  obtain ⟨_, _, _, heq⟩ := reviseItem_frame i b f t
  rw [heq]

@[simp] theorem reviseItem_sessions : (t.reviseItem i b f).sessions = t.sessions := by
  obtain ⟨_, _, _, heq⟩ := reviseItem_frame i b f t
  rw [heq]

@[simp] theorem reviseItem_lineageEdges : (t.reviseItem i b f).lineageEdges = t.lineageEdges := by
  obtain ⟨_, _, _, heq⟩ := reviseItem_frame i b f t
  rw [heq]

@[simp] theorem reviseItem_legacyItems : (t.reviseItem i b f).legacyItems = t.legacyItems := by
  obtain ⟨_, _, _, heq⟩ := reviseItem_frame i b f t
  rw [heq]

end

@[simp] theorem recordIssue_items (row : ItemRow) (t : Tables) : (recordIssue row t).items = t.items := by
  unfold recordIssue
  cases row.issue with
  | none => rfl
  | some issue => rfl

@[simp] theorem addItem_items (row : ItemRow) (t : Tables) : (t.addItem row).items = t.items ++ [row] :=
  recordIssue_items row _

theorem addItem_frame (row : ItemRow) (t : Tables) : ∃ history,
    t.addItem row = { t with items := t.items ++ [row], issueHistory := history, itemTransitions := t.itemTransitions ++ [transitionOf row row.createdAt] } := by
  unfold Tables.addItem recordTransition recordIssue
  cases row.issue with
  | none => exact ⟨_, rfl⟩
  | some issue => exact ⟨_, rfl⟩

def Located (row : ItemRow) : Prop :=
  ∀ stage, row.stage = some stage → ∀ ref ∈ stage.pullRequests, (campaignRepositoryLocation ref.repository).isSome = true

structure Named (row : ItemRow) : Prop where
  id : ∃ uuid, row.id = newId "cwi_" uuid
  located : Located row

/-- **The rows are consistent.**  Of the attempts of one item, and of one session, only the last may be open. -/
structure Wf (t : Tables) : Prop where
  ids : (t.items.map ItemRow.id).Nodup
  keys : t.items.Pairwise (fun a b => ¬(a.campaignSessionId = b.campaignSessionId ∧ a.itemKey = b.itemKey))
  named : ∀ row ∈ t.items, Named row
  attemptIds : (t.attempts.map AttemptRow.id).Nodup
  ordinals : t.attempts.Pairwise (fun a b => a.workItemId = b.workItemId → a.ordinal < b.ordinal)
  lastOfItem : t.attempts.Pairwise (fun a b => a.workItemId = b.workItemId → a.ended.isSome = true)
  lastOfSession : t.attempts.Pairwise (fun a b => a.sessionId = b.sessionId → a.sessionId.isSome = true → a.ended.isSome = true)
  homes : ∀ a ∈ t.attempts, (t.item a.campaignSessionId a.workItemId).isSome = true

theorem wf_empty : Wf .empty where
  ids := List.nodup_nil
  keys := List.Pairwise.nil
  named := List.forall_mem_nil _
  attemptIds := List.nodup_nil
  ordinals := List.Pairwise.nil
  lastOfItem := List.Pairwise.nil
  lastOfSession := List.Pairwise.nil
  homes := List.forall_mem_nil _

section

variable {t u : Tables} {c i j : String} {row : ItemRow}

theorem item_eq_some : t.item c i = some row → row ∈ t.items ∧ row.id = i ∧ row.campaignSessionId = c := by
  intro h
  unfold Tables.item at h
  have hfound := List.find?_some h
  simp only [Bool.and_eq_true, beq_iff_eq] at hfound
  exact ⟨List.mem_of_find?_eq_some h, hfound.1, hfound.2⟩

theorem Wf.row_ext (hwf : Wf t) {a b : ItemRow} (ha : a ∈ t.items) (hb : b ∈ t.items) (hid : a.id = b.id) : a = b :=
  List.inj_on_of_nodup_map hwf.ids ha hb hid

theorem Wf.item_of_mem (hwf : Wf t) (h : row ∈ t.items) : t.item row.campaignSessionId row.id = some row := by
  unfold Tables.item
  cases hfind : t.items.find? (fun r => r.id == row.id && r.campaignSessionId == row.campaignSessionId) with
  | none =>
    have hnot := List.find?_eq_none.1 hfind row h
    simp at hnot
  | some found =>
    have hfound := List.find?_some hfind
    simp only [Bool.and_eq_true, beq_iff_eq] at hfound
    rw [hwf.row_ext (List.mem_of_find?_eq_some hfind) h hfound.1]

theorem Wf.item_iff (hwf : Wf t) : t.item c i = some row ↔ row ∈ t.items ∧ row.id = i ∧ row.campaignSessionId = c := by
  constructor
  · exact item_eq_some
  · rintro ⟨hmem, rfl, rfl⟩
    exact hwf.item_of_mem hmem

theorem itemByKey_eq_some {key : String} (h : t.itemByKey c key = some row) :
    row ∈ t.items ∧ row.campaignSessionId = c ∧ row.itemKey = key := by
  unfold Tables.itemByKey at h
  have hfound := List.find?_some h
  simp only [Bool.and_eq_true, beq_iff_eq] at hfound
  exact ⟨List.mem_of_find?_eq_some h, hfound.1, hfound.2⟩

theorem Wf.item_of_key (hwf : Wf t) {key : String} (h : t.itemByKey c key = some row) : t.item c row.id = some row := by
  obtain ⟨hmem, rfl, -⟩ := itemByKey_eq_some h
  exact hwf.item_of_mem hmem

theorem Wf.find_id (hwf : Wf t) (h : row ∈ t.items) : t.items.find? (fun r => r.id == row.id) = some row := by
  cases hfind : t.items.find? (fun r => r.id == row.id) with
  | none =>
    have hnot := List.find?_eq_none.1 hfind row h
    simp at hnot
  | some found =>
    have hfound := List.find?_some hfind
    rw [beq_iff_eq] at hfound
    rw [hwf.row_ext (List.mem_of_find?_eq_some hfind) h hfound]

/-- **A revised item** is the only one that changes. -/
theorem Wf.reviseItem_items (hwf : Wf t) (b : Bool) (f : ItemRow → ItemRow) :
    (t.reviseItem i b f).items = t.items.map (fun r => if r.id = i then f r else r) := by
  unfold Tables.reviseItem
  split
  · rename_i hnone
    have hsame : ∀ r ∈ t.items, (if r.id = i then f r else r) = r := by
      intro r hr
      have hne := List.find?_eq_none.1 hnone r hr
      rw [beq_iff_eq] at hne
      rw [if_neg hne]
    rw [List.map_congr_left hsame, List.map_id']
  · rename_i old hold
    have hid := List.find?_some hold
    rw [beq_iff_eq] at hid
    have hmap : t.items.map (fun r => if r.id = i then f old else r) = t.items.map (fun r => if r.id = i then f r else r) := by
      apply List.map_congr_left
      intro r hr
      by_cases hr' : r.id = i
      · rw [if_pos hr', if_pos hr', hwf.row_ext (List.mem_of_find?_eq_some hold) hr (hid.trans hr'.symm)]
      · rw [if_neg hr', if_neg hr']
    have hitems : (if b = true then recordIssue (f old) { t with items := t.items.map (fun r => if r.id = i then f old else r) }
        else { t with items := t.items.map (fun r => if r.id = i then f old else r) }).items =
        t.items.map (fun r => if r.id = i then f r else r) := by
      cases b with
      | false => exact hmap
      | true =>
        rw [if_pos rfl, recordIssue_items]
        exact hmap
    simp only
    split
    · exact hitems
    · exact hitems

end

structure Revises (f : ItemRow → ItemRow) : Prop where
  id : ∀ r, (f r).id = r.id
  campaign : ∀ r, (f r).campaignSessionId = r.campaignSessionId
  key : ∀ r, (f r).itemKey = r.itemKey
  origin : ∀ r, (f r).origin = r.origin
  created : ∀ r, (f r).createdAt = r.createdAt
  located : ∀ r, Located r → Located (f r)

/-- One write of a mutation of campaign `c`. -/
inductive Write (c : String) : Tables → Tables → Prop
  | addItem {t : Tables} (row : ItemRow) : row.campaignSessionId = c → Named row →
      (∀ r ∈ t.items, r.id ≠ row.id ∧ ¬(r.campaignSessionId = row.campaignSessionId ∧ r.itemKey = row.itemKey)) →
      Write c t (t.addItem row)
  | reviseItem {t : Tables} (i : String) (b : Bool) (f : ItemRow → ItemRow) : (t.item c i).isSome = true → Revises f →
      (b = false → ∀ r, (f r).issue = r.issue) → Write c t (t.reviseItem i b f)
  | setDependencies {t : Tables} (i : String) (ids : List String) : (t.item c i).isSome = true → Write c t (t.setDependencies i ids)
  | addAttempt {t : Tables} (row : AttemptRow) (sessionId : String) (h : Hooks) (now : Int) : row.campaignSessionId = c →
      (t.item c row.workItemId).isSome = true → row.sessionId = some sessionId → row.ended = none → t.attemptFree row = true →
      (∀ a ∈ t.attempts, a.workItemId = row.workItemId → a.ordinal < row.ordinal) →
      Write c t (t.addAttempt row (openedStatus row.id now (observeSession t h sessionId)))
  | endAttempt {t : Tables} (a : AttemptRow) (e : AttemptEnd) : a ∈ t.attempts → a.campaignSessionId = c →
      Write c t (t.endAttempt a.id e)
  | addVerification {t : Tables} (row : VerificationRow) : row.campaignSessionId = c → (t.item c row.workItemId).isSome = true →
      Write c t { t with verifications := t.verifications ++ [row] }
  | addDelivery {t : Tables} (row : DeliveryRow) : row.campaignSessionId = c → (t.item c row.workItemId).isSome = true →
      Write c t { t with deliveries := t.deliveries ++ [row] }
  | setHandoff {t : Tables} (i : String) (row : HandoffRow) : (t.item c i).isSome = true → Write c t (t.setHandoff i row)
  | clearHandoff {t : Tables} (i : String) : (t.item c i).isSome = true → Write c t (t.clearHandoff i)
  | addFixedBy {t : Tables} (row : FixedByRow) : row.campaignSessionId = c → Write c t (insertFixedBy row t)
  | setDisposition {t : Tables} (id : String) (row : DispositionRow) : (∃ f ∈ t.followUps, f.id = id ∧ f.campaignSessionId = c) →
      (∀ i, row.resultingWorkItemId = some i → (t.item c i).isSome = true) → Write c t (t.setDisposition id row)
  | bump {t : Tables} (now : Int) (planState : Option PlanState) : Write c t (t.bump c now planState)

/-- The writes of a mutation of campaign `c`, one after another. -/
abbrev Writes (c : String) : Tables → Tables → Prop := Relation.ReflTransGen (Write c)

end Wollipog.Ledger

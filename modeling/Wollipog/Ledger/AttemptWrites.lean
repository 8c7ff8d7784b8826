import Wollipog.Ledger.Mutations
/-!
# Attempt writes — assigning, proving delivery and adjudicating are sequences of writes
-/
namespace Wollipog.Ledger

open Authority (CampaignIssueRef campaignRepositoryLocation)
open Scope (sortBy)

section

variable {t u : Tables} {c i child : String} {h : Hooks} {actor : String} {now : Int} {uuid : Uuid}
  {snapshot : CampaignAttemptSessionSnapshot}

/-! ## Assigning -/

variable {x : Unit} {id : String} {item : ItemRow} {a : AttemptRow} {uuids : Nat → Uuid} {reported : Option AttemptRow}
  {input : VerificationInput} {evidence : CampaignDeliveryEvidence}

theorem assignableItem_ok (hok : assignableItem t h c i = .ok item) : t.item c i = some item := by
  unfold assignableItem at hok
  cases hitem : t.item c i with
  | none =>
    rw [hitem] at hok
    cases hok
  | some found =>
    rw [hitem] at hok
    simp only at hok
    split at hok
    · cases hok
    · split at hok
      · cases hok
      · cases hok
        rfl

def vacated (h : Hooks) (now : Int) (itemId : String) (t : Tables) : Tables :=
  match t.openAttemptForItem itemId with
  | none => t
  | some itemOpen => closeAttempt h itemOpen .superseded now none t

def opened (c actor : String) (h : Hooks) (now : Int) (uuid : Uuid) (itemId child : String) (snapshot : CampaignAttemptSessionSnapshot)
    (t : Tables) : Tables :=
  let attempt := newAttempt h c actor now t itemId child snapshot (newId "catt_" uuid)
  (((t.addAttempt attempt (openedStatus attempt.id now (observeSession t h child))).clearHandoff itemId).touchItem itemId now).bump c
    now none

theorem insertAttempt_ok {row : AttemptRow} {status : AttemptStatusRow} (hok : insertAttempt row status t = (.ok x, u)) :
    t.attemptFree row = true ∧ u = t.addAttempt row status := by
  unfold insertAttempt at hok
  replace hok := Tx.bind_read_ok.1 hok
  obtain ⟨hfree, hok⟩ := Tx.bind_refuseIf_ok.1 hok
  obtain rfl := Tx.write_ok.1 hok
  refine ⟨?_, rfl⟩
  split at hfree
  · assumption
  · cases hfree

theorem openAttempt_ok {closed : List ClosedAttempt} {r : AssignResult}
    (hok : openAttempt h c actor now uuid i child snapshot closed t = (.ok r, u)) :
    (vacated h now i t).attemptFree (newAttempt h c actor now (vacated h now i t) i child snapshot (newId "catt_" uuid)) = true ∧
      u = opened c actor h now uuid i child snapshot (vacated h now i t) := by
  unfold openAttempt at hok
  replace hok := Tx.bind_read_ok.1 hok
  obtain ⟨x, t₃, hvacate, hok⟩ := Tx.bind_ok.1 hok
  have hvacated : t₃ = vacated h now i t := (Tx.write_ok.1 hvacate).symm
  replace hok := Tx.bind_read_ok.1 hok
  obtain ⟨y, t₆, hinsert, hok⟩ := Tx.bind_ok.1 hok
  obtain ⟨hfree, rfl⟩ := insertAttempt_ok hinsert
  replace hok := Tx.bind_write_ok.1 hok
  obtain rfl := bump_pure_ok hok
  rw [← hvacated]
  exact ⟨hfree, rfl⟩

/-- **What an assignment does**: the child keeps the item, or opens a new attempt on it. -/
inductive Assigned (h : Hooks) (c actor : String) (now : Int) (uuid : Uuid) (child : String) (snapshot : CampaignAttemptSessionSnapshot)
    (item : ItemRow) (t : Tables) : Tables → Prop
  | kept (open_ : AttemptRow) : t.openAttemptForSession child = some open_ → open_.workItemId = item.id →
      t.handoffs.get item.id = none → Assigned h c actor now uuid child snapshot item t t
  | cleared (open_ : AttemptRow) : t.openAttemptForSession child = some open_ → open_.workItemId = item.id →
      (t.handoffs.get item.id).isSome = true → Assigned h c actor now uuid child snapshot item t
        (((t.clearHandoff item.id).touchItem item.id now).bump c now none)
  | fresh : t.openAttemptForSession child = none →
      (vacated h now item.id t).attemptFree
        (newAttempt h c actor now (vacated h now item.id t) item.id child snapshot (newId "catt_" uuid)) = true →
      Assigned h c actor now uuid child snapshot item t (opened c actor h now uuid item.id child snapshot (vacated h now item.id t))
  | moved (open_ : AttemptRow) : t.openAttemptForSession child = some open_ → open_.workItemId ≠ item.id →
      open_.campaignSessionId = c →
      (vacated h now item.id (closeAttempt h open_ .reassigned now none t)).attemptFree
        (newAttempt h c actor now (vacated h now item.id (closeAttempt h open_ .reassigned now none t)) item.id child snapshot
          (newId "catt_" uuid)) = true →
      Assigned h c actor now uuid child snapshot item t
        (opened c actor h now uuid item.id child snapshot (vacated h now item.id (closeAttempt h open_ .reassigned now none t)))

theorem assignWork_ok {r : AssignResult} (hok : assignWork h c actor now uuid i child snapshot t = (.ok r, u)) :
    ∃ item, t.item c i = some item ∧ Assigned h c actor now uuid child snapshot item t u := by
  unfold assignWork at hok
  replace hok := Tx.bind_read_ok.1 hok
  cases hitem : assignableItem t h c i with
  | error e =>
    rw [hitem] at hok
    cases hok
  | ok item =>
    rw [hitem] at hok
    refine ⟨item, assignableItem_ok hitem, ?_⟩
    cases hopen : t.openAttemptForSession child with
    | none =>
      rw [hopen] at hok
      obtain ⟨hfree, rfl⟩ := openAttempt_ok hok
      exact .fresh hopen hfree
    | some open_ =>
      rw [hopen] at hok
      simp only at hok
      split at hok
      · rename_i hsame
        unfold keepAttempt at hok
        replace hok := Tx.bind_read_ok.1 hok
        split at hok
        · rename_i hhandoff
          replace hok := Tx.bind_write_ok.1 hok
          obtain rfl := bump_pure_ok hok
          exact .cleared open_ hopen hsame hhandoff
        · rename_i hhandoff
          obtain ⟨-, rfl⟩ := Tx.pure_ok.1 hok
          rw [Bool.not_eq_true, Option.isSome_eq_false_iff, Option.isNone_iff_eq_none] at hhandoff
          exact .kept open_ hopen hsame hhandoff
      · rename_i hother
        split at hok
        · cases hok
        · rename_i hcampaign
          replace hok := Tx.bind_write_ok.1 hok
          obtain ⟨hfree, rfl⟩ := openAttempt_ok hok
          exact .moved open_ hopen hother (not_not.1 hcampaign) hfree

theorem openAttemptForSession_some (hopen : t.openAttemptForSession child = some a) :
    a ∈ t.attempts ∧ a.sessionId = some child ∧ a.ended = none := by
  unfold Tables.openAttemptForSession at hopen
  have hfound := List.find?_some hopen
  simp only [Bool.and_eq_true, beq_iff_eq, Option.isNone_iff_eq_none] at hfound
  exact ⟨List.mem_of_find?_eq_some hopen, hfound.1, hfound.2⟩

theorem vacated_writes (hwf : Wf t) (hitem : (t.item c i).isSome = true) : Writes c t (vacated h now i t) := by
  unfold vacated
  split
  · exact .refl
  · rename_i a hopen
    obtain ⟨ha, rfl, -⟩ := openAttemptForItem_some hopen
    exact closeAttempt_writes hwf ha (hwf.attempt_campaign ha hitem)

theorem le_foldl_max (l : List Nat) : ∀ (m : Nat), m ≤ l.foldl max m ∧ ∀ n ∈ l, n ≤ l.foldl max m := by
  induction l with
  | nil => exact fun m => ⟨Nat.le_refl m, List.forall_mem_nil _⟩
  | cons a l ih =>
    intro m
    obtain ⟨hm, hl⟩ := ih (max m a)
    rw [List.foldl_cons]
    refine ⟨(Nat.le_max_left m a).trans hm, fun n hn => ?_⟩
    rcases List.mem_cons.1 hn with rfl | hn
    · exact (Nat.le_max_right m n).trans hm
    · exact hl n hn

theorem le_maxOrdinal (ha : a ∈ t.attempts) (hitem : a.workItemId = i) : a.ordinal ≤ t.maxOrdinal i := by
  unfold Tables.maxOrdinal
  apply (le_foldl_max _ 0).2
  refine List.mem_map.2 ⟨a, List.mem_filter.2 ⟨ha, ?_⟩, rfl⟩
  rw [hitem]
  exact beq_self_eq_true i

theorem opened_writes (hwf : Wf t) (hitem : (t.item c i).isSome = true)
    (hfree : t.attemptFree (newAttempt h c actor now t i child snapshot (newId "catt_" uuid)) = true) :
    Writes c t (opened c actor h now uuid i child snapshot t) := by
  have hadd : Write c t (t.addAttempt (newAttempt h c actor now t i child snapshot (newId "catt_" uuid))
      (openedStatus (newId "catt_" uuid) now (observeSession t h child))) :=
    .addAttempt _ child h now rfl hitem rfl rfl hfree (fun a ha hsame => Nat.lt_succ_of_le (le_maxOrdinal ha hsame))
  have hthere := hadd.item_isSome hwf hitem
  have hclear := Write.clearHandoff i hthere
  have hall := (Relation.ReflTransGen.single hadd).tail hclear
  have htouch := touchItem_write now (Writes.item_isSome hall hwf hitem)
  exact (hall.tail htouch).tail (.bump now none)

theorem Assigned.writes (hwf : Wf t) (hitem : (t.item c item.id).isSome = true)
    (ha : Assigned h c actor now uuid child snapshot item t u) : Writes c t u := by
  cases ha with
  | kept => exact .refl
  | cleared open_ hopen hsame hhandoff =>
    have hclear := Write.clearHandoff item.id hitem
    have htouch := touchItem_write now (hclear.item_isSome hwf hitem)
    exact ((Relation.ReflTransGen.single hclear).tail htouch).tail (.bump now none)
  | fresh hopen hfree =>
    have hvacate : Writes c t (vacated h now item.id t) := vacated_writes hwf hitem
    exact hvacate.trans (opened_writes (hvacate.wf hwf) (hvacate.item_isSome hwf hitem) hfree)
  | moved open_ hopen hother hcampaign hfree =>
    have hclose : Writes c t (closeAttempt h open_ .reassigned now none t) :=
      closeAttempt_writes hwf (openAttemptForSession_some hopen).1 hcampaign
    have hitem' := hclose.item_isSome hwf hitem
    have hvacate : Writes c (closeAttempt h open_ .reassigned now none t)
        (vacated h now item.id (closeAttempt h open_ .reassigned now none t)) :=
      vacated_writes (hclose.wf hwf) hitem'
    have hboth := hclose.trans hvacate
    exact hboth.trans (opened_writes (Writes.wf hboth hwf) (Writes.item_isSome hboth hwf hitem) hfree)

theorem item_id_isSome (hitem : t.item c i = some item) : item.id = i ∧ (t.item c item.id).isSome = true := by
  obtain ⟨-, rfl, -⟩ := item_eq_some hitem
  rw [hitem]
  exact ⟨rfl, rfl⟩

theorem assignWork_writes {r : AssignResult} (hwf : Wf t) (hok : assignWork h c actor now uuid i child snapshot t = (.ok r, u)) :
    Writes c t u := by
  obtain ⟨item, hitem, hassigned⟩ := assignWork_ok hok
  exact hassigned.writes hwf (item_id_isSome hitem).2

theorem insertVerification_ok {row : VerificationRow} (hok : insertVerification row t = (.ok x, u)) :
    u = { t with verifications := t.verifications ++ [row] } := by
  unfold insertVerification at hok
  replace hok := Tx.bind_read_ok.1 hok
  replace hok := (Tx.bind_refuseIf_ok.1 hok).2
  exact (Tx.write_ok.1 hok).symm

def verified (c : String) (h : Hooks) (now : Int) (input : VerificationInput) (attempt : AttemptRow) (uuid : Uuid) (t : Tables) : Tables :=
  let t := { t with verifications := t.verifications ++ [newVerification c now input attempt.id (newId "cwv_" uuid)] }
  (if input.outcome = .delivered then closeAttempt h attempt .delivered now none t else t.touchItem input.workItemId now).bump c now none

/-- **An accepted verification**: it was recorded, or it is recorded now. -/
theorem verificationWork_ok {r : VerificationResult} (hok : verificationWork h c now uuid input t = (.ok r, u)) :
    (∃ a existing, verificationTarget c t input.workItemId input.childSessionId input.outcome input.report = .ok (a, some existing) ∧ u = t) ∨
      ∃ a, verificationTarget c t input.workItemId input.childSessionId input.outcome input.report = .ok (a, none) ∧
        u = verified c h now input a uuid t := by
  unfold verificationWork at hok
  replace hok := Tx.bind_read_ok.1 hok
  cases htarget : verificationTarget c t input.workItemId input.childSessionId input.outcome input.report with
  | error e =>
    rw [htarget] at hok
    cases hok
  | ok found =>
    rw [htarget] at hok
    obtain ⟨a, existing⟩ := found
    cases existing with
    | some existing =>
      obtain ⟨-, rfl⟩ := Tx.pure_ok.1 hok
      exact .inl ⟨a, existing, rfl, rfl⟩
    | none =>
      obtain ⟨x, t₃, hinsert, hok⟩ := Tx.bind_ok.1 hok
      obtain rfl := insertVerification_ok hinsert
      replace hok := Tx.bind_write_ok.1 hok
      obtain rfl := bump_pure_ok hok
      refine .inr ⟨a, rfl, ?_⟩
      unfold verified
      split
      · rfl
      · rfl

theorem mem_attemptRows : a ∈ t.attemptRows i ↔ a ∈ t.attempts ∧ a.workItemId = i := by
  unfold Tables.attemptRows
  rw [Scope.mem_sortBy, List.mem_filter, beq_iff_eq]

theorem verificationTarget_none {outcome : VerificationOutcome} {report : ReportIdentity}
    (htarget : verificationTarget c t i child outcome report = .ok (a, none)) :
    (t.item c i).isSome = true ∧ a ∈ t.attempts ∧ a.workItemId = i ∧ a.ended = none ∧ a.sessionId = some child ∧
      (t.attemptRows i).getLast? = some a := by
  unfold verificationTarget at htarget
  cases hitem : t.item c i with
  | none =>
    rw [hitem] at htarget
    cases htarget
  | some item =>
    obtain ⟨-, hid, -⟩ := item_eq_some hitem
    rw [hitem] at htarget
    cases hlast : (t.attemptRows item.id).getLast? with
    | none =>
      simp only [hlast] at htarget
      cases htarget
    | some latest =>
      simp only [hlast] at htarget
      split at htarget
      · cases htarget
      · split at htarget
        · cases htarget
        · rename_i hopen
          cases htarget
          rw [not_or] at hopen
          obtain ⟨hmem, hwork⟩ := mem_attemptRows.1 (List.mem_of_getLast? hlast)
          rw [hid] at hlast hwork
          refine ⟨rfl, hmem, hwork, ?_, not_not.1 hopen.2, hlast⟩
          rw [Bool.not_eq_true, Option.isSome_eq_false_iff, Option.isNone_iff_eq_none] at hopen
          exact hopen.1

theorem addVerification_write (row : VerificationRow) (hc : row.campaignSessionId = c) (hitem : (t.item c row.workItemId).isSome = true) :
    Write c t { t with verifications := t.verifications ++ [row] } := .addVerification row hc hitem

theorem verificationWork_writes {r : VerificationResult} (hwf : Wf t)
    (hok : verificationWork h c now uuid input t = (.ok r, u)) : Writes c t u := by
  rcases verificationWork_ok hok with ⟨a, existing, -, rfl⟩ | ⟨a, htarget, rfl⟩
  · exact .refl
  · obtain ⟨hitem, ha, hwork, -⟩ := verificationTarget_none htarget
    have hadd := addVerification_write (newVerification c now input a.id (newId "cwv_" uuid)) rfl hitem
    have hitem' := hadd.item_isSome hwf hitem
    unfold verified
    split
    · have hc : a.campaignSessionId = c := by
        rw [← hwork] at hitem
        exact hwf.attempt_campaign ha hitem
      exact (Relation.ReflTransGen.head hadd (closeAttempt_writes (hadd.wf hwf) ha hc)).tail (.bump now none)
    · exact ((Relation.ReflTransGen.single hadd).tail (touchItem_write now hitem')).tail (.bump now none)

/-! ## Recording a delivery -/

theorem insertDelivery_ok {row : DeliveryRow} (hok : insertDelivery row t = (.ok x, u)) :
    u = { t with deliveries := t.deliveries ++ [row] } := by
  unfold insertDelivery at hok
  replace hok := Tx.bind_read_ok.1 hok
  replace hok := (Tx.bind_refuseIf_ok.1 hok).2
  exact (Tx.write_ok.1 hok).symm

def reportRecorded (attemptId : String) (evidence : ReportEvidence) (t : Tables) : Bool :=
  t.verifications.any (fun v => v.attemptId == attemptId && decide (v.outcome = .delivered) &&
    decide (v.report.seq = evidence.report.seq) && decide (v.report.eventEpoch = evidence.report.eventEpoch) &&
    decide (v.report.digest = evidence.report.digest))

def reportRow (c actor : String) (now : Int) (uuid : Uuid) (itemId attemptId : String) (evidence : ReportEvidence) : VerificationRow :=
  ⟨newId "cwv_" uuid, c, itemId, attemptId, some evidence.childSessionId, .delivered, evidence.report, some actor, now⟩

def withReport (c actor : String) (now : Int) (uuid : Uuid) (itemId : String) (report : Option ReportEvidence)
    (reported : Option AttemptRow) (t : Tables) : Tables :=
  match report, reported with
  | some report, some attempt =>
    if reportRecorded attempt.id report t then t
    else { t with verifications := t.verifications ++ [reportRow c actor now uuid itemId attempt.id report] }
  | _, _ => t

theorem addReport_ok {attemptId : String} {evidence : ReportEvidence}
    (hok : addReport c actor now uuid i attemptId evidence t = (.ok x, u)) :
    u = if reportRecorded attemptId evidence t then t
      else { t with verifications := t.verifications ++ [reportRow c actor now uuid i attemptId evidence] } := by
  unfold addReport at hok
  replace hok := Tx.bind_read_ok.1 hok
  unfold reportRecorded
  split at hok
  · rename_i hthere
    rw [if_pos hthere]
    exact (Tx.pure_ok.1 hok).2.symm
  · rename_i hnew
    rw [if_neg hnew]
    exact insertVerification_ok hok

def delivered (c actor : String) (h : Hooks) (now : Int) (uuids : Nat → Uuid) (item : ItemRow) (evidence : CampaignDeliveryEvidence)
    (pullRequests : List DeliveredPullRequest) (reported : Option AttemptRow) (t : Tables) : Tables :=
  let attempts := t.attemptRows item.id
  let row := newDelivery c actor now item evidence pullRequests attempts.getLast? reported (newId "cwd_" (uuids 0))
  let t := withReport c actor now (uuids 1) item.id evidence.report reported { t with deliveries := t.deliveries ++ [row] }
  ((closeDelivered h now row.id reported (attempts.find? (fun a => a.ended.isNone)) t).touchItem item.id now).bump c now none

theorem writeDelivery_ok {pullRequests : List DeliveredPullRequest} {r : DeliveryResult}
    (hok : writeDelivery h c actor now uuids item evidence pullRequests (t.attemptRows item.id) reported t = (.ok r, u)) :
    u = delivered c actor h now uuids item evidence pullRequests reported t := by
  unfold writeDelivery at hok
  obtain ⟨x, t₁, hinsert, hok⟩ := Tx.bind_ok.1 hok
  obtain rfl := insertDelivery_ok hinsert
  have hend : ∀ {t₂ u : Tables} {r : DeliveryResult} {id : String},
      (do
        Tx.write (fun t' => (closeDelivered h now (newDelivery c actor now item evidence pullRequests (t.attemptRows item.id).getLast?
          reported (newId "cwd_" (uuids 0))).id reported ((t.attemptRows item.id).find? (fun a => a.ended.isNone)) t').touchItem item.id now)
        let revision ← bump c now none
        pure ⟨revision, id, item.id⟩ : Ledger DeliveryResult) t₂ = (.ok r, u) →
      u = ((closeDelivered h now (newDelivery c actor now item evidence pullRequests (t.attemptRows item.id).getLast?
          reported (newId "cwd_" (uuids 0))).id reported ((t.attemptRows item.id).find? (fun a => a.ended.isNone)) t₂).touchItem
        item.id now).bump c now none := by
    intro t₂ u r id hok
    replace hok := Tx.bind_write_ok.1 hok
    exact bump_pure_ok hok
  unfold delivered
  cases hreport : evidence.report with
  | none =>
    rw [hreport] at hok
    exact hend hok
  | some report =>
    rw [hreport] at hok
    cases reported with
    | none => exact hend hok
    | some attempt =>
      obtain ⟨y, t₂, hadd, hok⟩ := Tx.bind_ok.1 hok
      obtain rfl := addReport_ok hadd
      exact hend hok

/-- **An accepted delivery**: it is the current one, or it is recorded now. -/
inductive Delivered (h : Hooks) (c actor : String) (now : Int) (uuids : Nat → Uuid) (evidence : CampaignDeliveryEvidence) (item : ItemRow)
    (t : Tables) : Tables → Prop
  | same (d : DeliveryRow) : currentDelivery (t.deliveryRows item.id) (t.attemptRows item.id).getLast? = some d →
      d.evidenceKey = deliveryKey (First.firstBy (fun p => forgeRefKeyOf p.ref) evidence.pullRequests) evidence.report →
      Delivered h c actor now uuids evidence item t t
  | recorded (reported : Option AttemptRow) : currentDelivery (t.deliveryRows item.id) (t.attemptRows item.id).getLast? = none →
      (∀ a, (t.attemptRows item.id).getLast? = some a → ∀ v ∈ t.verifications, v.attemptId = a.id → v.outcome ≠ .delivered) →
      evidenceAttempt t item.id evidence.report = .ok reported →
      Delivered h c actor now uuids evidence item t (delivered c actor h now uuids item evidence
        (First.firstBy (fun p => forgeRefKeyOf p.ref) evidence.pullRequests) reported t)

theorem deliveryWork_ok {r : DeliveryResult} (hok : deliveryWork h c actor now uuids evidence t = (.ok r, u)) :
    ∃ item, t.item c evidence.workItemId = some item ∧ item.commitment = .committed ∧ Delivered h c actor now uuids evidence item t u := by
  unfold deliveryWork at hok
  replace hok := Tx.bind_read_ok.1 hok
  cases hitem : t.item c evidence.workItemId with
  | none =>
    rw [hitem] at hok
    cases hok
  | some item =>
    rw [hitem] at hok
    obtain ⟨hcommitted, hok⟩ := Tx.bind_refuseIf_ok.1 hok
    replace hok := (Tx.bind_refuseIf_ok.1 hok).2
    have hcommitment : item.commitment = .committed := by
      by_contra hne
      rw [if_pos hne] at hcommitted
      cases hcommitted
    refine ⟨item, rfl, hcommitment, ?_⟩
    cases hsame : (currentDelivery (t.deliveryRows item.id) (t.attemptRows item.id).getLast?).filter (fun d =>
        d.evidenceKey == deliveryKey (First.firstBy (fun p => forgeRefKeyOf p.ref) evidence.pullRequests) evidence.report) with
    | some d =>
      rw [hsame] at hok
      obtain ⟨-, rfl⟩ := Tx.pure_ok.1 hok
      obtain ⟨hcurrent, hkey⟩ := Option.filter_eq_some_iff.1 hsame
      exact .same d hcurrent (beq_iff_eq.1 hkey)
    | none =>
      rw [hsame] at hok
      obtain ⟨hnone, hok⟩ := Tx.bind_refuseIf_ok.1 hok
      split at hnone
      · cases hnone
      · rename_i hnot
        simp only [Bool.or_eq_true, not_or, Option.not_isSome_iff_eq_none] at hnot
        obtain ⟨hcurrent, hunverified⟩ := hnot
        cases hreported : evidenceAttempt t item.id evidence.report with
        | error e =>
          rw [hreported] at hok
          cases hok
        | ok reported =>
          rw [hreported] at hok
          obtain rfl := writeDelivery_ok hok
          refine .recorded reported hcurrent ?_ hreported
          intro a ha v hv hattempt hout
          apply hunverified
          rw [ha, Option.any_some, List.any_eq_true]
          exact ⟨v, hv, by simp [hattempt, hout]⟩

theorem withReport_writes {report : Option ReportEvidence} (hitem : (t.item c i).isSome = true) :
    Writes c t (withReport c actor now uuid i report reported t) := by
  unfold withReport
  split
  · split
    · exact .refl
    · exact .single (addVerification_write _ rfl hitem)
  · exact .refl

theorem withReport_frame (c actor : String) (now : Int) (uuid : Uuid) (i : String) (report : Option ReportEvidence)
    (reported : Option AttemptRow) (t : Tables) : ∃ rows, withReport c actor now uuid i report reported t =
      { t with verifications := t.verifications ++ rows } := by
  have hsame : ({ t with verifications := t.verifications ++ [] } : Tables) = t := by rw [List.append_nil]
  unfold withReport
  split
  · split
    · exact ⟨[], hsame.symm⟩
    · exact ⟨_, rfl⟩
  · exact ⟨[], hsame.symm⟩

theorem closeDelivered_writes {open_ : Option AttemptRow} (hwf : Wf t)
    (hopen : ∀ a, open_ = some a → a ∈ t.attempts ∧ a.campaignSessionId = c) : Writes c t (closeDelivered h now id reported open_ t) := by
  unfold closeDelivered
  cases open_ with
  | none => exact .refl
  | some a =>
    obtain ⟨ha, hc⟩ := hopen a rfl
    simp only
    split
    · exact closeAttempt_writes hwf ha hc
    · exact closeAttempt_writes hwf ha hc

theorem Delivered.writes (hwf : Wf t)
    (hitem : (t.item c item.id).isSome = true) (hd : Delivered h c actor now uuids evidence item t u) : Writes c t u := by
  cases hd with
  | same => exact .refl
  | recorded reported hcurrent hunverified hreported =>
    unfold delivered
    have hrow : ∀ pullRequests latest, (newDelivery c actor now item evidence pullRequests latest reported
        (newId "cwd_" (uuids 0))).campaignSessionId = c ∧ (newDelivery c actor now item evidence pullRequests latest reported
        (newId "cwd_" (uuids 0))).workItemId = item.id := fun _ _ => ⟨rfl, rfl⟩
    specialize hrow (First.firstBy (fun p => forgeRefKeyOf p.ref) evidence.pullRequests) (t.attemptRows item.id).getLast?
    simp only
    generalize newDelivery c actor now item evidence (First.firstBy (fun p => forgeRefKeyOf p.ref) evidence.pullRequests)
      (t.attemptRows item.id).getLast? reported (newId "cwd_" (uuids 0)) = row at hrow ⊢
    have hadd : Write c t { t with deliveries := t.deliveries ++ [row] } := .addDelivery _ hrow.1 (hrow.2 ▸ hitem)
    have hreport : Writes c { t with deliveries := t.deliveries ++ [row] }
        (withReport c actor now (uuids 1) item.id evidence.report reported { t with deliveries := t.deliveries ++ [row] }) :=
      withReport_writes (hadd.item_isSome hwf hitem)
    have hboth := Relation.ReflTransGen.head hadd hreport
    have hclose : Writes c (withReport c actor now (uuids 1) item.id evidence.report reported { t with deliveries := t.deliveries ++ [row] })
        (closeDelivered h now row.id reported ((t.attemptRows item.id).find? (fun a => a.ended.isNone))
          (withReport c actor now (uuids 1) item.id evidence.report reported { t with deliveries := t.deliveries ++ [row] })) := by
      apply closeDelivered_writes (Writes.wf hboth hwf)
      intro a ha
      obtain ⟨hmem, hwork⟩ := mem_attemptRows.1 (List.mem_of_find?_eq_some ha)
      obtain ⟨rows, heq⟩ :=
        withReport_frame c actor now (uuids 1) item.id evidence.report reported { t with deliveries := t.deliveries ++ [row] }
      rw [heq]
      refine ⟨hmem, hwf.attempt_campaign hmem ?_⟩
      rw [hwork]
      exact hitem
    have hall := hboth.trans hclose
    exact (hall.tail (touchItem_write now (Writes.item_isSome hall hwf hitem))).tail (.bump now none)

theorem deliveryWork_writes {r : DeliveryResult} (hwf : Wf t)
    (hok : deliveryWork h c actor now uuids evidence t = (.ok r, u)) : Writes c t u := by
  obtain ⟨item, hitem, -, hdelivered⟩ := deliveryWork_ok hok
  exact hdelivered.writes hwf (item_id_isSome hitem).2

/-- **What an adjudication makes of its item**: it links an item, gives its first issue to one, or creates one. -/
inductive Resulted (c actor : String) (now : Int) (uuid : Uuid) (recommendation : FollowUpRow) (r : AdjudicateRequest) (t : Tables) :
    Option String × Bool → Tables → Prop
  | linked (existing : ItemRow) : t.itemByKey c (resultingKey t r) = some existing → r.disposition = .accepted →
      (∀ issue, r.resultingIssue = some issue → ∃ current, existing.issue = some current ∧
        Js.lower current.repository = Js.lower issue.repository ∧ current.number = issue.number) →
      Resulted c actor now uuid recommendation r t (some existing.id, false) t
  | tracked (existing : ItemRow) (issue : CampaignIssueRef) : t.itemByKey c (resultingKey t r) = some existing →
      r.disposition = .accepted → r.resultingIssue = some issue → existing.issue = none →
      Resulted c actor now uuid recommendation r t (some existing.id, true)
        (t.reviseItem existing.id true (fun row => { row with issue := some issue, updatedAt := now }))
  | created : t.itemByKey c (resultingKey t r) = none → r.disposition = .accepted →
      (∀ row ∈ t.items, row.id ≠ newId "cwi_" uuid ∧ ¬(row.campaignSessionId = c ∧ row.itemKey = resultingKey t r)) →
      Resulted c actor now uuid recommendation r t (some (newId "cwi_" uuid), true)
        (t.addItem (newFollowUp c actor now t recommendation r (newId "cwi_" uuid) (resultingKey t r)))
  | duplicated (existing : ItemRow) (key : String) : r.disposition = .duplicate → r.resultingWorkItemKey = some key →
      t.itemByKey c key = some existing → Resulted c actor now uuid recommendation r t (some existing.id, false) t
  | unlinked : (r.disposition ≠ .accepted) → (r.disposition = .duplicate → r.resultingWorkItemKey = none) →
      Resulted c actor now uuid recommendation r t (none, false) t

theorem linkExisting_ok {r : AdjudicateRequest} {recommendation : FollowUpRow} {existing : ItemRow} {key : String}
    {result : Option String × Bool} (hkey : t.itemByKey c (resultingKey t r) = some existing) (hd : r.disposition = .accepted)
    (hok : linkExisting now r key existing t = (.ok result, u)) : Resulted c actor now uuid recommendation r t result u := by
  unfold linkExisting at hok
  replace hok := (Tx.bind_refuseIf_ok.1 hok).2
  cases hissue : r.resultingIssue with
  | none =>
    rw [hissue] at hok
    obtain ⟨rfl, rfl⟩ := Tx.pure_ok.1 hok
    exact .linked existing hkey hd (fun issue hsome => by rw [hissue] at hsome; cases hsome)
  | some issue =>
    cases hcurrent : existing.issue with
    | none =>
      rw [hissue, hcurrent] at hok
      replace hok := Tx.bind_write_ok.1 hok
      obtain ⟨rfl, rfl⟩ := Tx.pure_ok.1 hok
      exact .tracked existing issue hkey hd hissue hcurrent
    | some current =>
      rw [hissue, hcurrent] at hok
      obtain ⟨hnone, hok⟩ := Tx.bind_refuseIf_ok.1 hok
      obtain ⟨rfl, rfl⟩ := Tx.pure_ok.1 hok
      refine .linked existing hkey hd (fun issue' hsome => ⟨current, hcurrent, ?_⟩)
      rw [hissue] at hsome
      cases hsome
      split at hnone
      · cases hnone
      · rename_i hagree
        rw [not_or, not_not, not_not] at hagree
        exact hagree

variable {r : AdjudicateRequest} {recommendation : FollowUpRow} {result : Option String × Bool}

theorem resultingItem_ok (hok : resultingItem c actor now uuid recommendation r t = (.ok result, u)) :
    Resulted c actor now uuid recommendation r t result u := by
  unfold resultingItem at hok
  cases hd : r.disposition with
  | accepted =>
    rw [hd] at hok
    simp only at hok
    unfold acceptedItem at hok
    replace hok := Tx.bind_read_ok.1 hok
    cases hkey : t.itemByKey c (resultingKey t r) with
    | some existing =>
      simp only [hkey] at hok
      exact linkExisting_ok hkey hd hok
    | none =>
      simp only [hkey] at hok
      replace hok := (Tx.bind_refuseIf_ok.1 hok).2
      obtain ⟨y, t₄, hinsert, hok⟩ := Tx.bind_ok.1 hok
      obtain ⟨rfl, rfl⟩ := Tx.pure_ok.1 hok
      obtain ⟨rfl, hnew⟩ := insertItem_ok hinsert
      exact .created hkey hd hnew
  | duplicate =>
    cases hkey : r.resultingWorkItemKey with
    | none =>
      rw [hd, hkey] at hok
      obtain ⟨rfl, rfl⟩ := Tx.pure_ok.1 hok
      exact .unlinked (by rw [hd]; exact fun h => by cases h) (fun _ => hkey)
    | some key =>
      rw [hd, hkey] at hok
      replace hok := Tx.bind_read_ok.1 hok
      cases hitem : t.itemByKey c key with
      | none =>
        rw [hitem] at hok
        cases hok
      | some existing =>
        rw [hitem] at hok
        obtain ⟨rfl, rfl⟩ := Tx.pure_ok.1 hok
        exact .duplicated existing key hd hkey hitem
  | rejected | deferred =>
    rw [hd] at hok
    obtain ⟨rfl, rfl⟩ := Tx.pure_ok.1 hok
    exact .unlinked (by rw [hd]; exact fun h => by cases h) (by rw [hd]; exact fun h => by cases h)

/-- **An accepted adjudication**, in its parts. -/
theorem adjudicateWork_ok {r : AdjudicateRequest} {a : AdjudicateResult} (hok : adjudicateWork h c actor now uuid r t = (.ok a, u)) :
    ∃ recommendation result t₁, t.followUps.find? (fun f => f.id == r.recommendationId && f.campaignSessionId == c) = some recommendation ∧
      Resulted c actor now uuid recommendation r t result t₁ ∧
      (((t₁.dispositions.get recommendation.id).any (fun previous => sameDisposition previous (newDisposition actor now r result.1)) = true ∧
          u = if result.2 then t₁.bump c now none else t₁) ∨
        ((t₁.dispositions.get recommendation.id).any (fun previous => sameDisposition previous (newDisposition actor now r result.1)) = false ∧
          u = (t₁.setDisposition recommendation.id (newDisposition actor now r result.1)).bump c now none)) := by
  unfold adjudicateWork at hok
  replace hok := Tx.bind_read_ok.1 hok
  cases hfind : t.followUps.find? (fun f => f.id == r.recommendationId && f.campaignSessionId == c) with
  | none =>
    simp only [hfind] at hok
    cases hok
  | some recommendation =>
    simp only [hfind] at hok
    replace hok := (Tx.bind_refuseIf_ok.1 hok).2
    obtain ⟨result, t₄, hresult, hok⟩ := Tx.bind_ok.1 hok
    replace hok := Tx.bind_read_ok.1 hok
    replace hok := (Tx.bind_refuseIf_ok.1 hok).2
    refine ⟨recommendation, result, t₄, rfl, resultingItem_ok hresult, ?_⟩
    split at hok
    · rename_i hsame
      obtain ⟨revision, t₈, hbump, hok⟩ := Tx.bind_ok.1 hok
      obtain ⟨-, rfl⟩ := Tx.pure_ok.1 hok
      exact .inl ⟨hsame, (bumpIf_ok hbump).1⟩
    · rename_i hnew
      replace hok := Tx.bind_write_ok.1 hok
      exact .inr ⟨Bool.eq_false_iff.2 hnew, bump_pure_ok hok⟩

theorem revises_issue (issue : Option CampaignIssueRef) (now : Int) :
    Revises (fun row => { row with issue := issue, updatedAt := now }) where
  id := fun _ => rfl
  campaign := fun _ => rfl
  key := fun _ => rfl
  origin := fun _ => rfl
  created := fun _ => rfl
  located := fun _ hlocated => hlocated

theorem Resulted.writes (hwf : Wf t) (hr : Resulted c actor now uuid recommendation r t result u) : Writes c t u := by
  cases hr with
  | linked | duplicated | unlinked => exact .refl
  | tracked existing issue hkey hd hissue hnone =>
    have hitem : (t.item c existing.id).isSome = true := by
      rw [hwf.item_of_key hkey]
      rfl
    exact .single (.reviseItem _ _ _ hitem (revises_issue _ now) (fun hfalse => by cases hfalse))
  | created hkey hd hnew =>
    have hnamed : Named (newFollowUp c actor now t recommendation r (newId "cwi_" uuid) (resultingKey t r)) :=
      ⟨⟨uuid, rfl⟩, fun _ hstage => by cases hstage⟩
    exact .single (.addItem _ rfl hnamed hnew)

theorem Resulted.there (hwf : Wf t) (hr : Resulted c actor now uuid recommendation r t result u) (hid : result.1 = some id) :
    (u.item c id).isSome = true := by
  have hu := Writes.wf (hr.writes hwf) hwf
  cases hr with
  | linked existing hkey =>
    cases hid
    rw [hwf.item_of_key hkey]
    rfl
  | tracked existing issue hkey hd hissue hnone =>
    cases hid
    rw [hwf.reviseItem_item (revises_issue _ now), hwf.item_of_key hkey]
    rfl
  | created hkey hd hnew =>
    cases hid
    apply hu.isSome_iff.2
    refine ⟨newFollowUp c actor now t recommendation r (newId "cwi_" uuid) (resultingKey t r), ?_, rfl, rfl⟩
    rw [addItem_items]
    exact List.mem_append_right _ (List.mem_singleton_self _)
  | duplicated existing key hd hkey hitem =>
    cases hid
    rw [hwf.item_of_key hitem]
    rfl
  | unlinked => cases hid

theorem Resulted.followUps (hr : Resulted c actor now uuid recommendation r t result u) : u.followUps = t.followUps := by
  cases hr with
  | linked | duplicated | unlinked => rfl
  | tracked => exact reviseItem_followUps _ _ _ _
  | created =>
    obtain ⟨history, heq⟩ := addItem_frame (newFollowUp c actor now t recommendation r (newId "cwi_" uuid) (resultingKey t r)) t
    rw [heq]

theorem adjudicateWork_writes {r : AdjudicateRequest} {a : AdjudicateResult} (hwf : Wf t)
    (hok : adjudicateWork h c actor now uuid r t = (.ok a, u)) : Writes c t u := by
  obtain ⟨recommendation, result, t₁, hfind, hresult, hend⟩ := adjudicateWork_ok hok
  have hwrites := hresult.writes hwf
  rcases hend with ⟨-, rfl⟩ | ⟨-, rfl⟩
  · exact hwrites.trans (bumpIf_writes _ _)
  · have hfound := List.find?_some hfind
    rw [Bool.and_eq_true, beq_iff_eq, beq_iff_eq] at hfound
    have hset : Write c t₁ (t₁.setDisposition recommendation.id (newDisposition actor now r result.1)) := by
      refine .setDisposition _ _ ⟨recommendation, ?_, rfl, hfound.2⟩ (fun i hi => hresult.there hwf hi)
      rw [hresult.followUps]
      exact List.mem_of_find?_eq_some hfind
    exact (hwrites.tail hset).tail (.bump now none)

end

end Wollipog.Ledger

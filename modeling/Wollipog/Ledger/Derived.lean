import Wollipog.Ledger.Attempts
import Wollipog.Ledger.Cycles
import Wollipog.Closure.Evidence
/-!
# Derived — the primary state of every work item

The whole campaign is derived by a recursive visit that keeps what it has derived; on an acyclic graph the order of
the records does not count.
-/
namespace Wollipog.Ledger

open Closure (PrimaryState)
open Successors (Edge Acyclic Ordered Solves)

inductive StateCause
  | recordedBlocker | dependencyBlocked | dependencyUnfinished | attemptSessionHeld | attemptSessionFailed
  | attemptSessionStopped | attemptSessionArchived | attemptSessionUnavailable | attemptSessionInputRequired
  | attemptSessionPendingDecision | attemptAwaitingVerification | dependencyUnmerged
deriving DecidableEq

inductive MergeDependencyStatus
  | merged | unmerged | failed
deriving DecidableEq

structure LatestAttempt where
  open_ : Bool
  delivered : Bool
deriving DecidableEq

structure WorkItemStateRecord where
  id : String
  commitment : CommitmentState
  dispatchState : DispatchState
  hasBlocker : Bool
  dependsOn : List String
  latestAttempt : Option LatestAttempt
  openAttemptSession : Option CampaignAttemptSessionObservation
  recordedDelivery : Bool
  mergeDependencies : List MergeDependencyStatus
  ownPullRequestsMerged : Bool

structure DerivedState where
  state : PrimaryState
  causes : List StateCause
deriving DecidableEq

/-- A dependency's state; `none` is the unresolvable one, of an item that is missing or on a cycle. -/
abbrev DependencyState := Option PrimaryState

def finishedState (state : DependencyState) : Bool :=
  match state with
  | some .delivered => true
  | some .cancelled => true
  | some .removed => true
  | _ => false

def blockingDependency (state : DependencyState) : Bool :=
  match state with
  | none => true
  | some .blocked => true
  | some .cancelled => true
  | some .removed => true
  | _ => false

def openAttemptState (record : WorkItemStateRecord) : DerivedState :=
  match record.openAttemptSession with
  | none => ⟨.blocked, [.attemptSessionUnavailable]⟩
  | some session =>
    if session.held then ⟨.blocked, [.attemptSessionHeld]⟩
    else if session.status = .failed then ⟨.blocked, [.attemptSessionFailed]⟩
    else if session.status = .stopped then ⟨.blocked, [.attemptSessionStopped]⟩
    else if session.archived then ⟨.blocked, [.attemptSessionArchived]⟩
    else if session.status = .inputRequired then ⟨.waiting, [.attemptSessionInputRequired]⟩
    else if 0 < session.pendingRequests then ⟨.waiting, [.attemptSessionPendingDecision]⟩
    else if session.status = .idle ∨ session.status = .completed then
      if record.mergeDependencies.contains .unmerged then ⟨.waiting, [.dependencyUnmerged, .attemptAwaitingVerification]⟩
      else ⟨.waiting, [.attemptAwaitingVerification]⟩
    else ⟨.running, []⟩

def deriveCampaignWorkItemState (record : WorkItemStateRecord) (dependencyStates : List DependencyState) : DerivedState :=
  let mergeDependencyFailed := record.mergeDependencies.contains .failed
  let delivered := record.latestAttempt.any LatestAttempt.delivered
  let open_ := record.latestAttempt.any LatestAttempt.open_
  if record.commitment = .cancelled then ⟨.cancelled, []⟩
  else if record.commitment = .scopeRemoved then ⟨.removed, []⟩
  else if record.recordedDelivery then ⟨.delivered, []⟩
  else if delivered then
    if record.ownPullRequestsMerged ∨ record.mergeDependencies.all (fun status => decide (status = .merged)) = true then ⟨.delivered, []⟩
    else if mergeDependencyFailed then ⟨.blocked, [.dependencyBlocked]⟩
    else ⟨.waiting, [.dependencyUnmerged]⟩
  else if open_ then
    if record.hasBlocker then ⟨.blocked, [.recordedBlocker]⟩
    else if mergeDependencyFailed then ⟨.blocked, [.dependencyBlocked]⟩
    else openAttemptState record
  else if record.hasBlocker then ⟨.blocked, [.recordedBlocker]⟩
  else if mergeDependencyFailed || dependencyStates.any blockingDependency then ⟨.blocked, [.dependencyBlocked]⟩
  else
    ⟨if record.dispatchState = .queued then .queued else .planned,
      if dependencyStates.any (fun state => !finishedState state) then [.dependencyUnfinished] else []⟩

def recordOf (records : List WorkItemStateRecord) (id : String) : Option WorkItemStateRecord :=
  records.reverse.find? (fun record => record.id == id)

/-- The state of one id and what is derived afterwards; the ids being visited are different. -/
def resolve (records : List WorkItemStateRecord) : ℕ → List String → OrdMap String DerivedState → String →
    DependencyState × OrdMap String DerivedState
  | 0, _, derived, _ => (none, derived)
  | fuel + 1, visiting, derived, id =>
    match derived.get id with
    | some done => (some done.state, derived)
    | none =>
      match recordOf records id with
      | none => (none, derived)
      | some record =>
        if visiting.contains id then (none, derived)
        else
          let below := record.dependsOn.foldl (fun (acc : List DependencyState × OrdMap String DerivedState) dependency =>
            let resolved := resolve records fuel (id :: visiting) acc.2 dependency
            (acc.1 ++ [resolved.1], resolved.2)) ([], derived)
          let result := deriveCampaignWorkItemState record below.1
          (some result.state, below.2.set id result)

def deriveCampaignWorkItemStates (records : List WorkItemStateRecord) : OrdMap String DerivedState :=
  records.foldl (fun derived record => (resolve records (records.length + 1) [] derived record.id).2) .empty

/-! ## The solution of the rule -/

section

variable {records : List WorkItemStateRecord} {f : String → DependencyState}

def Solution (records : List WorkItemStateRecord) (f : String → DependencyState) : Prop :=
  ∀ r ∈ records, f r.id = some (deriveCampaignWorkItemState r (r.dependsOn.map f)).state

def dependenciesOf (records : List WorkItemStateRecord) (id : String) : List String :=
  ((recordOf records id).map WorkItemStateRecord.dependsOn).getD []

/-- **Records of an acyclic graph**: one for each id, with dependencies among them. -/
structure RecordGraph (records : List WorkItemStateRecord) : Prop where
  ids : (records.map WorkItemStateRecord.id).Nodup
  own : ∀ r ∈ records, ∀ d ∈ r.dependsOn, d ∈ records.map WorkItemStateRecord.id
  acyclic : Acyclic (Edge (dependenciesOf records))

theorem recordOf_mem (hids : (records.map WorkItemStateRecord.id).Nodup) {r : WorkItemStateRecord} (hr : r ∈ records) :
    recordOf records r.id = some r := by
  unfold recordOf
  cases hfound : records.reverse.find? (fun record => record.id == r.id) with
  | none =>
    have hmiss := List.find?_eq_none.1 hfound r (List.mem_reverse.2 hr)
    exact absurd (beq_self_eq_true r.id) hmiss
  | some r' =>
    have hid := List.find?_some hfound
    rw [beq_iff_eq] at hid
    have hmem : r' ∈ records := List.mem_reverse.1 (List.mem_of_find?_eq_some hfound)
    rw [List.inj_on_of_nodup_map hids hmem hr hid]

def Agrees (records : List WorkItemStateRecord) (f : String → DependencyState) (derived : OrdMap String DerivedState) : Prop :=
  ∀ id d, derived.get id = some d → ∃ r, recordOf records id = some r ∧ d = deriveCampaignWorkItemState r (r.dependsOn.map f)

structure Resolved (records : List WorkItemStateRecord) (f : String → DependencyState) (derived : OrdMap String DerivedState)
    (id : String) (resolved : DependencyState × OrdMap String DerivedState) : Prop where
  state : resolved.1 = f id
  agrees : Agrees records f resolved.2
  kept : ∀ i, (derived.get i).isSome = true → (resolved.2.get i).isSome = true
  there : (resolved.2.get id).isSome = true

theorem resolve_all {fuel : ℕ} {visiting : List String} : ∀ (dependencies : List String) (states : List DependencyState)
    (derived : OrdMap String DerivedState), Agrees records f derived →
    (∀ d ∈ dependencies, ∀ derived, Agrees records f derived → Resolved records f derived d (resolve records fuel visiting derived d)) →
    let below := dependencies.foldl (fun (acc : List DependencyState × OrdMap String DerivedState) dependency =>
      let resolved := resolve records fuel visiting acc.2 dependency
      (acc.1 ++ [resolved.1], resolved.2)) (states, derived)
    below.1 = states ++ dependencies.map f ∧ Agrees records f below.2 ∧
      ∀ i, (derived.get i).isSome = true → (below.2.get i).isSome = true
  | [], states, derived, hagrees, _ => ⟨(List.append_nil states).symm, hagrees, fun _ h => h⟩
  | d :: dependencies, states, derived, hagrees, hone => by
    have hfirst := hone d List.mem_cons_self derived hagrees
    obtain ⟨hstates, hrest, hkept⟩ := resolve_all dependencies (states ++ [(resolve records fuel visiting derived d).1])
      (resolve records fuel visiting derived d).2 hfirst.agrees (fun x hx => hone x (List.mem_cons_of_mem d hx))
    refine ⟨hstates.trans ?_, hrest, fun i hi => hkept i (hfirst.kept i hi)⟩
    rw [hfirst.state, List.append_assoc]
    rfl

/-- **A visit resolves an id** that the ordered list has, when none of the ids being visited is in it. -/
theorem resolve_resolved (hids : (records.map WorkItemStateRecord.id).Nodup) (hf : Solution records f) {order : List String}
    (hordered : Ordered (dependenciesOf records) order) : (∀ id ∈ order, id ∈ records.map WorkItemStateRecord.id) →
    ∀ (fuel : ℕ) {visiting : List String} {derived : OrdMap String DerivedState} {id : String}, order.length ≤ fuel → id ∈ order →
      (∀ v ∈ visiting, v ∉ order) → Agrees records f derived → Resolved records f derived id (resolve records fuel visiting derived id) := by
  induction hordered with
  | nil => exact fun _ _ _ _ _ _ hid => absurd hid List.not_mem_nil
  | @cons a l hout hnew hl ih =>
    intro hinside fuel visiting derived id hfuel hid hvisiting hagrees
    have hrest := ih fun x hx => hinside x (List.mem_cons_of_mem a hx)
    rw [List.length_cons] at hfuel
    rcases List.mem_cons.1 hid with rfl | hid
    · obtain ⟨r, hr, hrid⟩ := List.mem_map.1 (hinside id List.mem_cons_self)
      have hrecord : recordOf records id = some r := by
        rw [← hrid]
        exact recordOf_mem hids hr
      have hstate : f id = some (deriveCampaignWorkItemState r (r.dependsOn.map f)).state := by
        rw [← hrid]
        exact hf r hr
      obtain ⟨fuel, rfl⟩ := Nat.exists_eq_succ_of_ne_zero (Nat.ne_of_gt (Nat.lt_of_lt_of_le (Nat.succ_pos _) hfuel))
      cases hdone : derived.get id with
      | some done =>
        obtain ⟨r', hr', rfl⟩ := hagrees id done hdone
        rw [hrecord] at hr'
        cases hr'
        simp only [resolve, hdone]
        exact ⟨hstate.symm, hagrees, fun _ h => h, by rw [hdone]; rfl⟩
      | none =>
        have hnot : visiting.contains id = false := Bool.eq_false_iff.2 fun hin =>
          hvisiting id (List.contains_iff_mem.1 hin) List.mem_cons_self
        have hdepends : ∀ d ∈ r.dependsOn, d ∈ l := fun d hd => hout d (by
          unfold dependenciesOf
          rw [hrecord]
          exact hd)
        have hapart : ∀ v ∈ id :: visiting, v ∉ l := fun v hv hvl => by
          rcases List.mem_cons.1 hv with rfl | hv
          · exact hnew hvl
          · exact hvisiting v hv (List.mem_cons_of_mem _ hvl)
        obtain ⟨hstates, hbelow, hkept⟩ := @resolve_all records f fuel (id :: visiting) r.dependsOn [] derived
          hagrees (fun d hd derived' hagrees' => hrest fuel (Nat.le_of_succ_le_succ hfuel) (hdepends d hd) hapart hagrees')
        simp only [resolve, hdone, hrecord, hnot]
        rw [if_neg Bool.false_ne_true, hstates, List.nil_append]
        refine ⟨hstate.symm, fun i d hget => ?_, fun i hi => ?_, ?_⟩
        · rw [OrdMap.get_set] at hget
          split at hget
          · rename_i hsame
            cases hget
            rw [hsame]
            exact ⟨r, hrecord, rfl⟩
          · exact hbelow i d hget
        · rw [OrdMap.get_set]
          split
          · rfl
          · exact hkept i hi
        · rw [OrdMap.get_set_self]
          rfl
    · exact hrest fuel (by omega) hid (fun v hv hvl => hvisiting v hv (List.mem_cons_of_mem a hvl)) hagrees

theorem derive_records (hone : ∀ r ∈ records, ∀ derived, Agrees records f derived →
      Resolved records f derived r.id (resolve records (records.length + 1) [] derived r.id)) :
    ∀ (rs : List WorkItemStateRecord) (derived : OrdMap String DerivedState), (∀ r ∈ rs, r ∈ records) → Agrees records f derived →
      let after := rs.foldl (fun derived record => (resolve records (records.length + 1) [] derived record.id).2) derived
      Agrees records f after ∧ (∀ i, (derived.get i).isSome = true → (after.get i).isSome = true) ∧
        ∀ r ∈ rs, (after.get r.id).isSome = true
  | [], _, _, hagrees => ⟨hagrees, fun _ h => h, List.forall_mem_nil _⟩
  | r :: rs, derived, hin, hagrees => by
    have hfirst := hone r (hin r List.mem_cons_self) derived hagrees
    obtain ⟨hafter, hkept, hall⟩ := derive_records hone rs _ (fun x hx => hin x (List.mem_cons_of_mem r hx)) hfirst.agrees
    refine ⟨hafter, fun i hi => hkept i (hfirst.kept i hi), fun x hx => ?_⟩
    rcases List.mem_cons.1 hx with rfl | hx
    · exact hkept _ hfirst.there
    · exact hall x hx

theorem RecordGraph.edges (h : RecordGraph records) :
    ∀ a ∈ records.map WorkItemStateRecord.id, ∀ b ∈ dependenciesOf records a, b ∈ records.map WorkItemStateRecord.id := by
  intro a ha b hb
  obtain ⟨r, hr, rfl⟩ := List.mem_map.1 ha
  unfold dependenciesOf at hb
  rw [recordOf_mem h.ids hr] at hb
  exact h.own r hr b hb

/-- **Every record gets what the rule gives it.** -/
theorem RecordGraph.derived (h : RecordGraph records) (hf : Solution records f) {r : WorkItemStateRecord} (hr : r ∈ records) :
    (deriveCampaignWorkItemStates records).get r.id = some (deriveCampaignWorkItemState r (r.dependsOn.map f)) := by
  obtain ⟨order, hordered, hsame⟩ := exists_ordered h.edges h.acyclic
  have hlength : order.length ≤ records.length + 1 := by
    have hle := (List.subperm_of_subset hordered.nodup (fun a ha => (hsame a).1 ha)).length_le
    rw [List.length_map] at hle
    omega
  have hone : ∀ r ∈ records, ∀ derived, Agrees records f derived →
      Resolved records f derived r.id (resolve records (records.length + 1) [] derived r.id) := fun r hr derived hagrees =>
    resolve_resolved h.ids hf hordered (fun a ha => (hsame a).1 ha) _ hlength ((hsame r.id).2 (List.mem_map.2 ⟨r, hr, rfl⟩))
      (List.forall_mem_nil _) hagrees
  obtain ⟨hagrees, -, hall⟩ := derive_records hone records .empty (fun _ hr => hr) (fun id d hget => by cases hget)
  obtain ⟨d, hd⟩ := Option.isSome_iff_exists.1 (hall r hr)
  obtain ⟨r', hr', rfl⟩ := hagrees r.id d hd
  rw [recordOf_mem h.ids hr] at hr'
  cases hr'
  exact hd

def recordRule (records : List WorkItemStateRecord) (id : String) (states : List DependencyState) : DependencyState :=
  (recordOf records id).map (fun r => (deriveCampaignWorkItemState r states).state)

theorem solution_iff (hids : (records.map WorkItemStateRecord.id).Nodup) :
    Solution records f ↔ Solves (dependenciesOf records) (recordRule records) (records.map WorkItemStateRecord.id) f := by
  have hrule : ∀ r ∈ records, recordRule records r.id ((dependenciesOf records r.id).map f) =
      some (deriveCampaignWorkItemState r (r.dependsOn.map f)).state := fun r hr => by
    unfold recordRule dependenciesOf
    rw [recordOf_mem hids hr]
    rfl
  constructor
  · intro h a ha
    obtain ⟨r, hr, rfl⟩ := List.mem_map.1 ha
    rw [hrule r hr]
    exact h r hr
  · intro h r hr
    rw [h r.id (List.mem_map.2 ⟨r, hr, rfl⟩), hrule r hr]

/-- **The rule has one solution** on an acyclic graph. -/
theorem RecordGraph.solution (h : RecordGraph records) :
    ∃ f, Solution records f ∧ ∀ g, Solution records g → ∀ r ∈ records, g r.id = f r.id := by
  obtain ⟨order, hordered, hsame⟩ := exists_ordered h.edges h.acyclic
  have hall : ∀ {f : String → DependencyState}, Solution records f → Solves (dependenciesOf records) (recordRule records) order f :=
    fun hf a ha => (solution_iff h.ids).1 hf a ((hsame a).1 ha)
  have hsolved : Solution records (Successors.solve (dependenciesOf records) (recordRule records) none order) :=
    (solution_iff h.ids).2 fun a ha => hordered.solves none a ((hsame a).2 ha)
  exact ⟨_, hsolved, fun g hg r hr => hordered.unique (hall hg) (hall hsolved) r.id ((hsame r.id).2 (List.mem_map.2 ⟨r, hr, rfl⟩))⟩

theorem RecordGraph.perm {records' : List WorkItemStateRecord} (h : RecordGraph records) (hperm : records'.Perm records) :
    RecordGraph records' := by
  have hids : (records'.map WorkItemStateRecord.id).Nodup := (hperm.map _).nodup_iff.2 h.ids
  have hedges : dependenciesOf records' = dependenciesOf records := by
    funext id
    unfold dependenciesOf
    cases hfound : recordOf records' id with
    | none =>
      have hnone : recordOf records id = none := by
        refine List.find?_eq_none.2 fun r hr => ?_
        exact List.find?_eq_none.1 hfound r (List.mem_reverse.2 (hperm.mem_iff.2 (List.mem_reverse.1 hr)))
      rw [hnone]
    | some r =>
      have hid := List.find?_some hfound
      rw [beq_iff_eq] at hid
      have hmem : r ∈ records := hperm.mem_iff.1 (List.mem_reverse.1 (List.mem_of_find?_eq_some hfound))
      rw [← hid, recordOf_mem h.ids hmem]
  refine ⟨hids, fun r hr d hd => (hperm.map _).mem_iff.2 (h.own r (hperm.mem_iff.1 hr) d hd), ?_⟩
  rw [hedges]
  exact h.acyclic

/-- **Every order of the records derives the one solution.** -/
theorem RecordGraph.order_free (h : RecordGraph records) : ∃ f, Solution records f ∧
    (∀ g, Solution records g → ∀ r ∈ records, g r.id = f r.id) ∧ ∀ records', records'.Perm records → ∀ r ∈ records,
      (deriveCampaignWorkItemStates records').get r.id = some (deriveCampaignWorkItemState r (r.dependsOn.map f)) := by
  obtain ⟨f, hf, hunique⟩ := h.solution
  refine ⟨f, hf, hunique, fun records' hperm r hr => ?_⟩
  exact (h.perm hperm).derived (fun r hr => hf r (hperm.mem_iff.1 hr)) (hperm.mem_iff.2 hr)

end

end Wollipog.Ledger

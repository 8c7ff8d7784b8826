import Wollipog.Campaign.Runs
/-!
# Repeat — a scan made again

A scan made again with the same arguments and clock finds every record as it left it, and the order of its observations
does not count, unless two observations share a record or one leaves a record unsettled (`Unsettled`).
-/
namespace Wollipog.Campaign

open Sys CAMPAIGN_RECOVERY_LIMITS

variable {scan : Scan} {table : Table} {id : Identity} {o : CampaignRecoveryObservation} {row : Option Row} {r : Row}

def ReadOnly (scan : Scan) (table : Table) : Prop :=
  synchronize scan (synchronize scan table).1 = ((synchronize scan table).1, false)

def OrderFree (scan : Scan) (table : Table) : Prop :=
  ∀ observations', scan.observations.Perm observations' → ∀ id,
    (synchronize { scan with observations := observations' } table).1.get id = (synchronize scan table).1.get id

/-- A record in flight at its ceiling: the second scan calls it exhausted. -/
def LeavesFlight (scan : Scan) (r : Row) (o : CampaignRecoveryObservation) : Prop :=
  r.record.state = .dispatched ∧ maxAttempts ≤ r.record.attempts ∧ r.signal = o.signal ∧ r.record.resource = o.resource ∧
    o.resolved = false ∧ Scan.stalled scan (some r) o = false ∧ o.reason ≠ .attemptsExhausted ∧
    (scan.authorized = false ∨ r.record.policyRevision ≠ scan.policyRevision ∨ o.owner = .human ∨ r.record.reason ≠ o.reason)

/-- A hard block cancelled under its own reason: the second scan gives it the observed one. -/
def CancelsBlock (scan : Scan) (r : Row) (o : CampaignRecoveryObservation) : Prop :=
  r.record.reason.hard = true ∧ r.record.state.terminal = false ∧ r.record.attempts < maxAttempts ∧ o.resolved = false ∧
    Scan.escalatedStop (some r) o = false ∧ scan.authorized = false ∧ o.owner ≠ .human ∧ o.reason ≠ r.record.reason ∧
    ¬(r.record.dispatchFenced = true ∧ r.signal = o.signal ∧ r.record.resource = o.resource ∧
      r.record.policyRevision = scan.policyRevision ∧ r.record.effectiveOwner = o.owner)

def Unsettled (scan : Scan) (r : Row) (o : CampaignRecoveryObservation) : Prop := LeavesFlight scan r o ∨ CancelsBlock scan r o

/-! ## One record scanned twice -/

theorem currentDispatch_next : Scan.currentDispatch (some (scan.next row o)) o = false := by
  rw [Bool.eq_false_iff]
  intro h
  exact Scan.state_ne_dispatched (currentDispatch_iff.1 h).1

theorem stalled_of_currentDispatch (h : Scan.currentDispatch row o = false) : Scan.stalled scan row o = false := by
  unfold Scan.stalled
  rw [h, Bool.false_and, Bool.false_and, Bool.false_and]

theorem freshOccurrence_next : Scan.freshOccurrence (some (scan.next row o)) o = false := by
  unfold Scan.freshOccurrence
  change (o.resource.occurrenceId != o.resource.occurrenceId || o.resource.sessionId != o.resource.sessionId) = false
  rw [bne_self_eq_false, bne_self_eq_false, Bool.or_false]

theorem dispatchFenced_next : Scan.dispatchFenced scan (some (scan.next row o)) o = Scan.dispatchFenced scan row o := by
  cases hauthorized : scan.authorized with
  | false => rw [Scan.dispatchFenced_unauthorized hauthorized, Scan.dispatchFenced_unauthorized hauthorized]
  | true =>
    have hstate : ((scan.next row o).record.state == .cancelled) = false := by
      rw [beq_eq_false_iff_ne]
      intro hc
      rw [(Scan.unauthorized_of_cancelled hc).1] at hauthorized
      cases hauthorized
    have hfence : Scan.dispatchFenced scan (some (scan.next row o)) o = (scan.next row o).record.dispatchFenced := by
      conv_lhs => unfold Scan.dispatchFenced
      rw [freshOccurrence_next, hauthorized, Option.any_some, hstate]
      change ((!true || ((scan.next row o).record.dispatchFenced || false || scan.policyRevision != scan.policyRevision)) &&
        !(true && false)) = _
      rw [bne_self_eq_false, Bool.or_false, Bool.or_false, Bool.not_true, Bool.false_or, Bool.and_false, Bool.not_false, Bool.and_true]
    exact hfence

theorem state_of_firstReason {row' : Option Row} (hfirst : Scan.firstReason scan row' o = Scan.firstReason scan row o)
    (hfence : Scan.dispatchFenced scan row' o = Scan.dispatchFenced scan row o) :
    Scan.state scan row' o = Scan.state scan row o ∧ Scan.reason scan row' o = Scan.reason scan row o := by
  have hstate : Scan.state scan row' o = Scan.state scan row o := by
    unfold Scan.state
    rw [hfirst, hfence]
  refine ⟨hstate, ?_⟩
  unfold Scan.reason
  rw [hstate, hfirst, hfence]

theorem unchanged_next (hfirst : Scan.firstReason scan (some (scan.next row o)) o = Scan.firstReason scan row o) :
    scan.unchanged (some (scan.next row o)) o = true := by
  obtain ⟨hstate, hreason⟩ := state_of_firstReason hfirst dispatchFenced_next
  unfold Scan.unchanged
  rw [Option.any_some, stalled_of_currentDispatch currentDispatch_next, hstate, hreason, dispatchFenced_next]
  have hresource : Scan.changedResource (some (scan.next row o)) o = false := by
    unfold Scan.changedResource
    rw [Option.any_some]
    exact bne_self_eq_false _
  have hlast : (if o.resolved = true then (scan.next row o).record.state == .resolved
      else !(scan.next row o).record.state.terminal || Scan.state scan row o == (scan.next row o).record.state) = true := by
    split
    · rename_i hresolved
      exact beq_iff_eq.2 (Scan.state_resolved hresolved)
    · rw [Bool.or_eq_true]
      exact .inr (beq_self_eq_true _)
  rw [hresource, hlast]
  simp [Scan.next]

theorem firstReason_next (scan : Scan) (row : Option Row) (o : CampaignRecoveryObservation) :
    Scan.firstReason scan (some (scan.next row o)) o =
      if maxAttempts ≤ Scan.attempts row ∧ o.resolved = false then .attemptsExhausted
      else if (Scan.firstReason scan row o).hard = true ∧ (Scan.state scan row o).terminal = false ∧ o.resolved = false ∧
          Scan.escalatedStop (some (scan.next row o)) o = false then Scan.firstReason scan row o else o.reason := by
  conv_lhs => unfold Scan.firstReason
  rw [currentDispatch_next, stalled_of_currentDispatch currentDispatch_next, Scan.attempts_next]
  by_cases hmax : maxAttempts ≤ Scan.attempts row ∧ o.resolved = false
  · rw [if_pos hmax, if_pos (by rw [decide_eq_true hmax.1, hmax.2]; rfl)]
  · rw [if_neg hmax, if_neg (by
      rw [Bool.not_false, Bool.true_or, Bool.and_true, Bool.and_eq_true, decide_eq_true_iff, Bool.not_eq_true']
      exact hmax)]
    dsimp only
    by_cases hkept : (Scan.firstReason scan row o).hard = true ∧ (Scan.state scan row o).terminal = false ∧ o.resolved = false ∧
        Scan.escalatedStop (some (scan.next row o)) o = false
    · have hreason : (scan.next row o).record.reason = Scan.firstReason scan row o := Scan.reason_of_hard hkept.1
      have hstate : (scan.next row o).record.state.terminal = false := hkept.2.1
      have hagain : ((scan.next row o).record.reason.hard && !(scan.next row o).record.state.terminal && !o.resolved &&
          !Scan.escalatedStop (some (scan.next row o)) o) = true := by
        rw [hreason, hkept.1, hstate, hkept.2.2.1, hkept.2.2.2]
        rfl
      rw [if_pos hkept, if_pos hagain, hreason]
    · rw [if_neg hkept, if_neg]
      simp only [Bool.and_eq_true, Bool.not_eq_true']
      rintro ⟨⟨⟨hhard, hopen⟩, hresolved⟩, hescalated⟩
      have hfirst : (Scan.firstReason scan row o).hard = true := by
        rw [← Scan.hard_reason]
        exact hhard
      exact hkept ⟨hfirst, hopen, hresolved, hescalated⟩

theorem firstReason_fresh (scan : Scan) (hmax : ¬(maxAttempts ≤ Scan.attempts row ∧ o.resolved = false)) :
    (∃ r, row = some r ∧ r.record.reason.hard = true ∧ r.record.state.terminal = false ∧ o.resolved = false ∧
      Scan.escalatedStop (some r) o = false ∧ Scan.firstReason scan row o = r.record.reason) ∨
    Scan.firstReason scan row o = o.reason := by
  unfold Scan.firstReason
  rw [if_neg (by
    simp only [Bool.and_eq_true, decide_eq_true_iff, Bool.not_eq_true']
    exact fun h => hmax h.1)]
  cases row with
  | none => exact .inr rfl
  | some r =>
    dsimp only
    split
    · rename_i h
      simp only [Bool.and_eq_true, Bool.not_eq_true'] at h
      exact .inl ⟨r, rfl, h.1.1.1, h.1.1.2, h.1.2, h.2, rfl⟩
    · exact .inr rfl

theorem fence_false (hfence : r.record.dispatchFenced = false) (hstate : r.record.state = .dispatched)
    (hauthorized : scan.authorized = true) (hrevision : r.record.policyRevision = scan.policyRevision) :
    Scan.dispatchFenced scan (some r) o = false := by
  unfold Scan.dispatchFenced
  rw [Option.any_some, hfence, hstate, hauthorized, hrevision, bne_self_eq_false]
  rfl

theorem resolved_of_state (h : Scan.state scan row o = .resolved) : o.resolved = true := by
  by_contra hresolved
  unfold Scan.state at h
  rw [if_neg hresolved] at h
  split at h
  · split at h <;> cases h
  · split at h
    · cases h
    · split at h
      · cases h
      · split at h
        · cases h
        · split at h <;> cases h

theorem unchanged_some (h : scan.unchanged (some r) o = true) : r.signal = o.signal ∧ r.record.resource = o.resource ∧
    r.record.policyRevision = scan.policyRevision ∧ r.record.effectiveOwner = o.owner ∧
    r.record.reason = Scan.reason scan (some r) o ∧ r.record.dispatchFenced = Scan.dispatchFenced scan (some r) o ∧
    (o.resolved = true ↔ r.record.state = .resolved) := by
  unfold Scan.unchanged Scan.changedResource at h
  rw [Option.any_some, Option.any_some] at h
  simp only [Bool.and_eq_true, beq_iff_eq, Bool.not_eq_true', bne_eq_false_iff_eq] at h
  obtain ⟨⟨⟨⟨⟨⟨⟨-, hsignal⟩, hresource⟩, hrevision⟩, howner⟩, hreason⟩, hfence⟩, hlast⟩ := h
  refine ⟨hsignal, hresource, hrevision, howner, hreason, hfence, ?_⟩
  cases hresolved : o.resolved with
  | true =>
    rw [hresolved, if_pos rfl, beq_iff_eq] at hlast
    exact ⟨fun _ => hlast, fun _ => rfl⟩
  | false =>
    rw [hresolved, if_neg Bool.false_ne_true, Bool.or_eq_true, Bool.not_eq_true', beq_iff_eq] at hlast
    refine ⟨fun h => Bool.noConfusion h, fun hstate => ?_⟩
    rw [hstate] at hlast
    rcases hlast with hlast | hlast
    · cases hlast
    · rw [resolved_of_state hlast] at hresolved
      cases hresolved

theorem stalled_of_state (h : r.record.state ≠ .dispatched) : Scan.stalled scan (some r) o = false :=
  stalled_of_currentDispatch (Bool.eq_false_iff.2 (fun hc => h (currentDispatch_iff.1 hc).1))

theorem next_reason {reason : CampaignRecoveryReason} (hkept : Scan.firstReason scan row o = reason) (hhard : reason.hard = true) :
    Scan.reason scan row o = reason := by
  have hfirst : (Scan.firstReason scan row o).hard = true := by
    rw [hkept]
    exact hhard
  rw [Scan.reason_of_hard hfirst, hkept]

/-- **An attempt in flight at the ceiling**: the first scan takes it out of flight, the second calls it exhausted. -/
theorem LeavesFlight.changes (hwf : Wf id r) (h : LeavesFlight scan r o) :
    scan.unchanged (some r) o = false ∧ scan.unchanged (some (scan.next (some r) o)) o = false := by
  obtain ⟨hstate, hmax, hsignal, hresource, hresolved, hstalled, hexhausted, hother⟩ := h
  obtain ⟨hfence, hflight, hsoft⟩ := hwf.flight hstate
  have hnotfirst : Scan.firstReason scan (some r) o ≠ .attemptsExhausted := by
    unfold Scan.firstReason
    rw [hstalled, currentDispatch_iff.2 ⟨hstate, hsignal, hresource⟩, Bool.not_true, Bool.or_false, Bool.and_false,
      if_neg Bool.false_ne_true]
    dsimp only
    rw [hsoft, Bool.false_and, Bool.false_and, Bool.false_and, if_neg Bool.false_ne_true]
    exact hexhausted
  have hfirst := firstReason_soft hsoft hnotfirst
  constructor
  · rw [Bool.eq_false_iff]
    intro hu
    obtain ⟨-, -, hrevision, howner, hreason, hfenced, -⟩ := unchanged_some hu
    rw [hfence] at hfenced
    have hauthorized : scan.authorized = true := by
      cases ha : scan.authorized with
      | true => rfl
      | false =>
        rw [Scan.dispatchFenced_unauthorized ha] at hfenced
        cases hfenced
    have hsame : Scan.reason scan (some r) o = o.reason := by
      unfold Scan.reason
      rw [← hfenced, Bool.and_false, Bool.false_and, Bool.false_and, if_neg Bool.false_ne_true, hfirst]
    rcases hother with hother | hother | hother | hother
    · rw [hauthorized] at hother
      cases hother
    · exact hother hrevision
    · rw [← howner, hflight] at hother
      cases hother
    · exact hother (hreason.trans hsame)
  · rw [Bool.eq_false_iff]
    intro hu
    obtain ⟨-, -, -, -, hreason, -⟩ := unchanged_some hu
    have hagain : Scan.firstReason scan (some (scan.next (some r) o)) o = .attemptsExhausted := by
      rw [firstReason_next, if_pos ⟨hmax, hresolved⟩]
    rw [Scan.reason_of_hard (by rw [hagain]; rfl), hagain] at hreason
    change Scan.reason scan (some r) o = .attemptsExhausted at hreason
    unfold Scan.reason at hreason
    split at hreason
    · cases hreason
    · exact hnotfirst hreason

/-- **A block that is cancelled** for want of authority loses its reason in the second scan. -/
theorem CancelsBlock.changes (h : CancelsBlock scan r o) :
    scan.unchanged (some r) o = false ∧ scan.unchanged (some (scan.next (some r) o)) o = false := by
  obtain ⟨hhard, hopen, hmax, hresolved, hescalated, hunauthorized, howner, hreason, hmatch⟩ := h
  have hfence : Scan.dispatchFenced scan (some r) o = true := Scan.dispatchFenced_unauthorized hunauthorized
  have hkept : Scan.firstReason scan (some r) o = r.record.reason := by
    unfold Scan.firstReason
    have hbelow : ¬maxAttempts ≤ Scan.attempts (some r) := Nat.not_le.2 hmax
    rw [decide_eq_false hbelow, Bool.false_and, Bool.false_and, if_neg Bool.false_ne_true]
    dsimp only
    rw [hhard, hopen, hresolved, hescalated]
    rfl
  constructor
  · rw [Bool.eq_false_iff]
    intro hu
    obtain ⟨hsignal, hresource, hrevision, howner', -, hfenced, -⟩ := unchanged_some hu
    exact hmatch ⟨by rw [hfenced, hfence], hsignal, hresource, hrevision, howner'⟩
  · rw [Bool.eq_false_iff]
    intro hu
    obtain ⟨-, -, -, -, hagain, -⟩ := unchanged_some hu
    have hcancelled : Scan.state scan (some r) o = .cancelled := by
      have huncertain : Scan.firstReason scan (some r) o ≠ .uncertainOutcome := by
        intro hu
        rw [← hkept, hu] at hhard
        cases hhard
      unfold Scan.state
      rw [hresolved, if_neg Bool.false_ne_true, hunauthorized, bne_iff_ne.2 howner, Bool.not_false, Bool.true_and, if_pos rfl,
        if_neg huncertain]
    have hsecond : Scan.firstReason scan (some (scan.next (some r) o)) o = o.reason := by
      rw [firstReason_next, if_neg (fun h => Nat.not_le.2 hmax h.1), if_neg]
      rw [hcancelled]
      exact fun h => Bool.noConfusion h.2.1
    have hfirst : (scan.next (some r) o).record.reason = r.record.reason := next_reason hkept hhard
    rw [hfirst] at hagain
    unfold Scan.reason at hagain
    split at hagain
    · rw [hagain] at hhard
      cases hhard
    · exact hreason (by rw [hagain, hsecond])

theorem unsettled_of_changed (hwf : Wf id r) (hid : scan.idOf o = id) (hchanged : scan.unchanged (some r) o = false)
    (hagain : scan.unchanged (some (scan.next (some r) o)) o = false) : Unsettled scan r o := by
  have haction : r.record.action = o.action := by
    rw [hwf.action, ← hid]
    rfl
  by_contra hsettled
  have hfirst : Scan.firstReason scan (some (scan.next (some r) o)) o ≠ Scan.firstReason scan (some r) o := by
    intro h
    rw [unchanged_next h] at hagain
    cases hagain
  rw [firstReason_next] at hfirst
  split at hfirst
  · rename_i hmax
    obtain ⟨hmax, hresolved⟩ := hmax
    have hne := hfirst.symm
    obtain ⟨r', hr', hstate, hsignal, hresource, hstalled⟩ := in_flight hmax hresolved hne
    cases hr'
    obtain ⟨hfence, hflight, hsoft⟩ := hwf.flight hstate
    have hobserved := firstReason_soft hsoft hne
    by_cases hother : scan.authorized = false ∨ r.record.policyRevision ≠ scan.policyRevision ∨ o.owner = .human ∨
        r.record.reason ≠ o.reason
    · rw [hobserved] at hne
      exact hsettled (.inl ⟨hstate, hmax, hsignal, hresource, hresolved, hstalled, hne, hother⟩)
    · simp only [not_or, not_not, Bool.not_eq_false] at hother
      obtain ⟨hauthorized, hrevision, howner, hreason⟩ := hother
      have hfenced : Scan.dispatchFenced scan (some r) o = false := fence_false hfence hstate hauthorized hrevision
      have howner' : o.owner = .orchestrator := by
        cases ho : o.owner with
        | human => exact absurd ho howner
        | orchestrator => rfl
      have hsame : r.record.reason = Scan.reason scan (some r) o := by
        unfold Scan.reason
        rw [hfenced, Bool.and_false, Bool.false_and, Bool.false_and, if_neg Bool.false_ne_true, hobserved]
        exact hreason
      rw [unchanged_in_flight hstate hfence hsignal hresource hresolved hstalled hrevision (by rw [hflight, howner']) hsame
        hfenced] at hchanged
      cases hchanged
  · rename_i hmax
    rcases firstReason_fresh scan hmax with ⟨r', hr', hhard, hopen, hresolved, hescalated, hkept⟩ | hobserved
    · cases hr'
      rw [hkept] at hfirst
      split at hfirst
      · exact hfirst rfl
      · rename_i hnot
        have hlt : r.record.attempts < maxAttempts := Nat.not_le.1 (fun h => hmax ⟨h, hresolved⟩)
        have hclosed : (Scan.state scan (some r) o).terminal = true := by
          by_contra hstate
          refine hnot ⟨hhard, Bool.eq_false_iff.2 hstate, hresolved, ?_⟩
          unfold Scan.escalatedStop at hescalated ⊢
          rw [Option.any_some] at hescalated ⊢
          have hreason : (scan.next (some r) o).record.reason = r.record.reason := next_reason hkept hhard
          rw [haction] at hescalated
          rw [hreason]
          exact hescalated
        have hcancelled : Scan.state scan (some r) o = .cancelled := by
          cases hs : Scan.state scan (some r) o with
          | cancelled => rfl
          | resolved =>
            rw [resolved_of_state hs] at hresolved
            cases hresolved
          | ready | backoff | dispatched | waitingHuman | blocked =>
            rw [hs] at hclosed
            cases hclosed
        obtain ⟨hunauthorized, -, howner⟩ := Scan.unauthorized_of_cancelled hcancelled
        refine hsettled (.inr ⟨hhard, hopen, hlt, hresolved, hescalated, hunauthorized, howner, hfirst, ?_⟩)
        rintro ⟨hfence, hsignal, hresource, hrevision, howner'⟩
        have hstate : r.record.state ≠ .dispatched := by
          intro hd
          rw [(hwf.flight hd).2.2] at hhard
          cases hhard
        have hu : scan.unchanged (some r) o = true := by
          unfold Scan.unchanged Scan.changedResource
          rw [Option.any_some, Option.any_some, stalled_of_state hstate, hsignal, hresource, hrevision, howner',
            next_reason hkept hhard, Scan.dispatchFenced_unauthorized hunauthorized, hfence, hresolved, hopen]
          simp
        rw [hu] at hchanged
        cases hchanged
    · rw [hobserved] at hfirst
      split at hfirst
      · exact hfirst rfl
      · exact hfirst rfl

/-- **The second scan** of one record: it writes again exactly what the first left unsettled. -/
theorem unsettled_iff (hwf : Wf id r) (hid : scan.idOf o = id) :
    Unsettled scan r o ↔ scan.unchanged (some r) o = false ∧ scan.unchanged (some (scan.next (some r) o)) o = false := by
  constructor
  · rintro (hleaves | hcancels)
    · exact hleaves.changes hwf
    · exact hcancels.changes
  · rintro ⟨hchanged, hagain⟩
    exact unsettled_of_changed hwf hid hchanged hagain

def afterRow (scan : Scan) (row : Option Row) (o : CampaignRecoveryObservation) : Option Row :=
  if scan.unchanged row o then row else some (scan.next row o)

theorem unchanged_after (hrow : ∀ r, row = some r → Wf id r ∧ r.record.state.terminal = true) (hid : scan.idOf o = id)
    (hchanged : scan.unchanged row o = false) : scan.unchanged (some (scan.next row o)) o = true := by
  cases row with
  | none =>
    refine unchanged_next ?_
    have hfirst : Scan.firstReason scan none o = o.reason := by
      unfold Scan.firstReason Scan.attempts
      rfl
    rw [firstReason_next, if_neg (fun h => absurd h.1 (by decide)), hfirst]
    split <;> rfl
  | some r =>
    obtain ⟨hwf, hclosed⟩ := hrow r rfl
    by_contra hagain
    rcases (unsettled_iff hwf hid).2 ⟨hchanged, Bool.eq_false_iff.2 hagain⟩ with hflight | hblock
    · rw [hflight.1] at hclosed
      cases hclosed
    · rw [hblock.2.1] at hclosed
      cases hclosed

theorem observe_after (hwf : ∀ r, table.get id = some r → Wf id r) (hid : scan.idOf o = id) {seen : Table × Bool}
    (hseen : seen.1.get id = table.get id ∨ seen.1.get id = afterRow scan (table.get id) o) :
    (observe scan (openRows table scan.campaignId) seen o).1.get id = afterRow scan (table.get id) o := by
  rw [get_observe]
  have hcampaign : id.campaignId = scan.campaignId := by
    rw [← hid]
    rfl
  by_cases hopen : ∃ r, table.get id = some r ∧ r.record.state.terminal = false
  · obtain ⟨r, hr, hopen⟩ := hopen
    rw [openRows_open hr hcampaign hopen, Option.some_or, hr]
    unfold afterRow
    rw [hr] at hseen
    cases hu : scan.unchanged (some r) o with
    | true =>
      rw [if_neg (fun h => Bool.noConfusion h.2), if_pos rfl]
      unfold afterRow at hseen
      rw [hu, if_pos rfl] at hseen
      exact hseen.elim (fun h => h) (fun h => h)
    | false => rw [if_pos ⟨hid, rfl⟩, if_neg Bool.false_ne_true]
  · have hnone : (openRows table scan.campaignId).get id = none := by
      cases hp : (openRows table scan.campaignId).get id with
      | none => rfl
      | some r => exact absurd ⟨r, (openRows_some hp).1, (openRows_some hp).2.2⟩ hopen
    have hrows : ∀ r, table.get id = some r → Wf id r ∧ r.record.state.terminal = true := by
      intro r hr
      refine ⟨hwf r hr, ?_⟩
      by_contra hstate
      exact hopen ⟨r, hr, Bool.eq_false_iff.2 hstate⟩
    rw [hnone, Option.none_or]
    have hfromStored : (if scan.idOf o = id ∧ scan.unchanged (table.get id) o = false then some (scan.next (table.get id) o)
        else table.get id) = afterRow scan (table.get id) o := by
      unfold afterRow
      cases hu : scan.unchanged (table.get id) o with
      | true => rw [if_neg (fun h => Bool.noConfusion h.2), if_pos rfl]
      | false => rw [if_pos ⟨hid, rfl⟩, if_neg Bool.false_ne_true]
    rcases hseen with hseen | hseen
    · rw [hseen]
      exact hfromStored
    · rw [hseen]
      cases hu : scan.unchanged (table.get id) o with
      | true =>
        have hsame : afterRow scan (table.get id) o = table.get id := if_pos hu
        rw [hsame, hfromStored, hsame]
      | false =>
        have hnew : afterRow scan (table.get id) o = some (scan.next (table.get id) o) := if_neg (by rw [hu]; exact Bool.false_ne_true)
        rw [hnew, unchanged_after hrows hid hu, if_neg (fun h => Bool.noConfusion h.2)]

theorem foldl_observe (hwf : ∀ r, table.get id = some r → Wf id r) (hid : scan.idOf o = id) :
    ∀ (l : List CampaignRecoveryObservation), (∀ o' ∈ l, scan.idOf o' = id → o' = o) → ∀ seen : Table × Bool,
      seen.1.get id = table.get id ∨ seen.1.get id = afterRow scan (table.get id) o →
      (l.foldl (observe scan (openRows table scan.campaignId)) seen).1.get id =
        if o ∈ l then afterRow scan (table.get id) o else seen.1.get id
  | [], _, _, _ => (if_neg List.not_mem_nil).symm
  | o' :: l, hone, seen, hseen => by
    rw [List.foldl_cons]
    by_cases heq : scan.idOf o' = id
    · have hsame := hone o' List.mem_cons_self heq
      rw [hsame]
      have hafter := observe_after hwf hid hseen
      rw [foldl_observe hwf hid l (fun x hx => hone x (List.mem_cons_of_mem _ hx)) _ (.inr hafter), if_pos List.mem_cons_self, hafter]
      split <;> rfl
    · have hother : (observe scan (openRows table scan.campaignId) seen o').1.get id = seen.1.get id := by
        rw [get_observe, if_neg (fun h => heq h.1)]
      rw [foldl_observe hwf hid l (fun x hx => hone x (List.mem_cons_of_mem _ hx)) _ (by rw [hother]; exact hseen), hother]
      have hne : o ≠ o' := fun h => heq (by rw [← h]; exact hid)
      by_cases hmem : o ∈ l
      · rw [if_pos hmem, if_pos (List.mem_cons_of_mem _ hmem)]
      · rw [if_neg hmem, if_neg (fun h => (List.mem_cons.1 h).elim hne hmem)]

theorem foldl_observe_other {previous : Table} : ∀ (l : List CampaignRecoveryObservation), id ∉ l.map scan.idOf →
    ∀ seen : Table × Bool, (l.foldl (observe scan previous) seen).1.get id = seen.1.get id
  | [], _, _ => rfl
  | o :: l, hnot, seen => by
    rw [List.map_cons, List.mem_cons, not_or] at hnot
    rw [List.foldl_cons, foldl_observe_other l hnot.2, get_observe, if_neg (fun h => hnot.1 h.1.symm)]

theorem foldl_close {campaignId : String} {observed : List Identity} : ∀ (l : List (Identity × Row)),
    (∀ e ∈ l, e ∈ (openRows table campaignId).entries) → ∀ seen : Table × Bool,
      (l.foldl (closeUnobserved scan observed) seen).1.get id =
        if id ∉ observed ∧ id ∈ l.map Prod.fst then ((openRows table campaignId).get id).map scan.drop else seen.1.get id
  | [], _, _ => (if_neg (fun h => absurd h.2 List.not_mem_nil)).symm
  | e :: l, hl, seen => by
    have he := OrdMap.get_of_mem (hl e List.mem_cons_self)
    rw [List.foldl_cons, foldl_close l (fun x hx => hl x (List.mem_cons_of_mem _ hx)), List.map_cons]
    by_cases hrest : id ∉ observed ∧ id ∈ l.map Prod.fst
    · rw [if_pos hrest, if_pos ⟨hrest.1, List.mem_cons_of_mem _ hrest.2⟩]
    · rw [if_neg hrest, get_closeUnobserved]
      by_cases hid : id ∉ observed ∧ e.1 = id
      · obtain ⟨hobs, rfl⟩ := hid
        rw [if_pos ⟨rfl, (openRows_some he).2.2, hobs⟩, if_pos ⟨hobs, List.mem_cons_self⟩, he, Option.map_some]
      · rw [if_neg (fun h => hid ⟨h.2.2, h.1⟩), if_neg]
        rintro ⟨hobs, hmem⟩
        rcases List.mem_cons.1 hmem with rfl | hmem
        · exact hid ⟨hobs, rfl⟩
        · exact hrest ⟨hobs, hmem⟩

def Distinct (scan : Scan) : Prop :=
  ∀ o ∈ scan.observations, ∀ o' ∈ scan.observations, scan.idOf o = scan.idOf o' → o = o'

/-- **The rows after a scan** of distinct observations: each from its own, the open rest is closed. -/
theorem get_synchronize_observed (hwf : ∀ id r, table.get id = some r → Wf id r) (hdistinct : Distinct scan)
    (ho : o ∈ scan.observations) :
    (synchronize scan table).1.get (scan.idOf o) = afterRow scan (table.get (scan.idOf o)) o := by
  unfold synchronize
  dsimp only
  rw [foldl_close _ (fun _ he => he), if_neg (fun h => h.1 (List.mem_map_of_mem ho)),
    foldl_observe (hwf _) rfl scan.observations (fun o' ho' hid => hdistinct o' ho' o ho hid) _ (.inl rfl), if_pos ho]

theorem get_synchronize_unobserved (hnot : id ∉ scan.observations.map scan.idOf) : (synchronize scan table).1.get id =
      if id ∈ (openRows table scan.campaignId).keys then ((openRows table scan.campaignId).get id).map scan.drop else table.get id := by
  unfold synchronize
  dsimp only
  rw [foldl_close _ (fun _ he => he), foldl_observe_other _ hnot]
  by_cases hopen : id ∈ (openRows table scan.campaignId).keys
  · rw [if_pos hopen, if_pos ⟨hnot, hopen⟩]
  · rw [if_neg hopen, if_neg (fun h => hopen h.2)]

theorem synchronize_false (h : (synchronize scan table).2 = false) :
    (synchronize scan table).1 = table ∧ ∀ o ∈ scan.observations, scan.unchanged (table.get (scan.idOf o)) o = true := by
  have hclose : ∀ (observed : List Identity) (l : List (Identity × Row)) (seen : Table × Bool),
      (l.foldl (closeUnobserved scan observed) seen).2 = false → l.foldl (closeUnobserved scan observed) seen = seen := by
    intro observed l
    induction l with
    | nil => exact fun _ _ => rfl
    | cons e l ih =>
      intro seen hflag
      have hrest := ih _ hflag
      rw [List.foldl_cons, hrest] at hflag ⊢
      unfold closeUnobserved at hflag ⊢
      split
      · rfl
      · rename_i hwrite
        rw [if_neg hwrite] at hflag
        cases hflag
  have hstored : ∀ i, ((openRows table scan.campaignId).get i).or (table.get i) = table.get i := by
    intro i
    cases hp : (openRows table scan.campaignId).get i with
    | none => rw [Option.none_or]
    | some r => rw [Option.some_or, (openRows_some hp).1]
  have hobserve : ∀ (l : List CampaignRecoveryObservation) (seen : Table × Bool),
      (l.foldl (observe scan (openRows table scan.campaignId)) seen).2 = false → seen.2 = false := by
    intro l
    induction l with
    | nil => exact fun _ hflag => hflag
    | cons o l ih =>
      intro seen hflag
      have hone := ih _ hflag
      unfold observe at hone
      dsimp only at hone
      split at hone
      · exact hone
      · cases hone
  have hloop : ∀ (l : List CampaignRecoveryObservation),
      (l.foldl (observe scan (openRows table scan.campaignId)) (table, false)).2 = false →
        l.foldl (observe scan (openRows table scan.campaignId)) (table, false) = (table, false) ∧
          ∀ o ∈ l, scan.unchanged (table.get (scan.idOf o)) o = true := by
    intro l
    induction l with
    | nil => exact fun _ => ⟨rfl, List.forall_mem_nil _⟩
    | cons o l ih =>
      intro hflag
      rw [List.foldl_cons] at hflag ⊢
      have hone := hobserve l _ hflag
      unfold observe at hone
      dsimp only at hone
      split at hone
      · rename_i hu
        have hsame : observe scan (openRows table scan.campaignId) (table, false) o = (table, false) := by
          unfold observe
          dsimp only
          rw [if_pos hu]
        rw [hsame] at hflag ⊢
        obtain ⟨hfold, hrest⟩ := ih hflag
        rw [hstored] at hu
        exact ⟨hfold, List.forall_mem_cons.2 ⟨hu, hrest⟩⟩
      · cases hone
  unfold synchronize at h ⊢
  dsimp only at h ⊢
  have hsame := hclose _ _ _ h
  rw [hsame] at h ⊢
  obtain ⟨hfold, hall⟩ := hloop _ h
  rw [hfold]
  exact ⟨rfl, hall⟩

theorem synchronize_unchanged (hall : ∀ o ∈ scan.observations, scan.unchanged (table.get (scan.idOf o)) o = true)
    (hopen : ∀ id ∈ (openRows table scan.campaignId).keys, id ∈ scan.observations.map scan.idOf) :
    synchronize scan table = (table, false) := by
  have hloop : ∀ (l : List CampaignRecoveryObservation), (∀ o ∈ l, scan.unchanged (table.get (scan.idOf o)) o = true) →
      l.foldl (observe scan (openRows table scan.campaignId)) (table, false) = (table, false) := by
    intro l
    induction l with
    | nil => exact fun _ => rfl
    | cons o l ih =>
      intro hl
      have hu := hl o List.mem_cons_self
      have hsame : observe scan (openRows table scan.campaignId) (table, false) o = (table, false) := by
        unfold observe
        dsimp only
        cases hp : (openRows table scan.campaignId).get (scan.idOf o) with
        | none => rw [Option.none_or, if_pos hu]
        | some r =>
          rw [(openRows_some hp).1] at hu
          rw [Option.some_or, if_pos hu]
      rw [List.foldl_cons, hsame]
      exact ih (fun x hx => hl x (List.mem_cons_of_mem _ hx))
  have hclose : ∀ (l : List (Identity × Row)), (∀ e ∈ l, e.1 ∈ scan.observations.map scan.idOf) →
      l.foldl (closeUnobserved scan (scan.observations.map scan.idOf)) (table, false) = (table, false) := by
    intro l
    induction l with
    | nil => exact fun _ => rfl
    | cons e l ih =>
      intro hl
      have hsame : closeUnobserved scan (scan.observations.map scan.idOf) (table, false) e = (table, false) := by
        unfold closeUnobserved
        rw [List.contains_iff_mem.2 (hl e List.mem_cons_self), Bool.or_true, if_pos rfl]
      rw [List.foldl_cons, hsame]
      exact ih (fun x hx => hl x (List.mem_cons_of_mem _ hx))
  unfold synchronize
  dsimp only
  rw [hloop _ hall]
  exact hclose _ (fun e he => hopen e.1 (List.mem_map_of_mem he))

def SignalTells (scan : Scan) : Prop :=
  ∀ o ∈ scan.observations, ∀ o' ∈ scan.observations, o.action = o'.action → o.signal = o'.signal → o.resource = o'.resource →
    o.owner = o'.owner → o.resolved = o'.resolved → o = o'

theorem distinct_of_unchanged (htells : SignalTells scan)
    (hall : ∀ o ∈ scan.observations, scan.unchanged (table.get (scan.idOf o)) o = true) : Distinct scan := by
  intro o ho o' ho' hid
  have hu := hall o ho
  have hu' := hall o' ho'
  rw [← hid] at hu'
  cases hr : table.get (scan.idOf o) with
  | none =>
    rw [hr] at hu
    cases hu
  | some r =>
    rw [hr] at hu hu'
    obtain ⟨hsignal, hresource, -, howner, -, -, hresolved⟩ := unchanged_some hu
    obtain ⟨hsignal', hresource', -, howner', -, -, hresolved'⟩ := unchanged_some hu'
    have haction : o.action = o'.action := congrArg Identity.action hid
    refine htells o ho o' ho' haction (hsignal.symm.trans hsignal') (hresource.symm.trans hresource')
      (howner.symm.trans howner') ?_
    rw [Bool.eq_iff_iff]
    exact hresolved.trans hresolved'.symm

theorem readOnly_of_settled (hwf : ∀ id r, table.get id = some r → Wf id r) (hdistinct : Distinct scan)
    (hsettled : ∀ o ∈ scan.observations, ∀ r, table.get (scan.idOf o) = some r → ¬Unsettled scan r o) : ReadOnly scan table := by
  refine synchronize_unchanged ?_ ?_
  · intro o ho
    rw [get_synchronize_observed hwf hdistinct ho]
    unfold afterRow
    cases hu : scan.unchanged (table.get (scan.idOf o)) o with
    | true => rwa [if_pos rfl]
    | false =>
      rw [if_neg Bool.false_ne_true]
      cases hr : table.get (scan.idOf o) with
      | none => exact @unchanged_after scan (scan.idOf o) o none (fun r hr => by cases hr) rfl rfl
      | some r =>
        by_contra hagain
        rw [hr] at hu
        exact hsettled o ho r hr ((unsettled_iff (hwf _ r hr) rfl).2 ⟨hu, Bool.eq_false_iff.2 hagain⟩)
  · intro id hkey
    by_contra hnot
    obtain ⟨r, hr⟩ := OrdMap.mem_keys_iff.1 hkey
    obtain ⟨hget, hcampaign, hopen⟩ := openRows_some hr
    rw [get_synchronize_unobserved hnot] at hget
    split at hget
    · obtain ⟨r', -, rfl⟩ := Option.map_eq_some_iff.1 hget
      rw [drop_terminal] at hopen
      cases hopen
    · rename_i hclosed
      exact hclosed (OrdMap.mem_keys_iff.2 ⟨r, openRows_open hget hcampaign hopen⟩)

theorem orderFree_of_distinct (hwf : ∀ id r, table.get id = some r → Wf id r) (hdistinct : Distinct scan) : OrderFree scan table := by
  intro observations' hperm id
  have hdistinct' : Distinct { scan with observations := observations' } :=
    fun o ho o' ho' hid => hdistinct o (hperm.mem_iff.2 ho) o' (hperm.mem_iff.2 ho') hid
  by_cases hobserved : id ∈ scan.observations.map scan.idOf
  · obtain ⟨o, ho, rfl⟩ := List.mem_map.1 hobserved
    rw [get_synchronize_observed hwf hdistinct ho]
    exact get_synchronize_observed hwf hdistinct' (hperm.mem_iff.1 ho)
  · have hobserved' : id ∉ observations'.map scan.idOf := fun h => hobserved ((hperm.map scan.idOf).mem_iff.2 h)
    rw [get_synchronize_unobserved hobserved]
    exact @get_synchronize_unobserved { scan with observations := observations' } table id hobserved'

/-- **A repeated scan is read-only and order-free** exactly where no two observations share a record and none leaves it
unsettled. -/
theorem repeated_scan_iff {before : Identity → Identity → Bool} {l : List Seen} (h : Run (step before) OrdMap.empty l table)
    (htells : SignalTells scan) : (ReadOnly scan table ∧ OrderFree scan table) ↔
      Distinct scan ∧ ∀ o ∈ scan.observations, ∀ r, table.get (scan.idOf o) = some r → ¬Unsettled scan r o := by
  have hwf : ∀ id r, table.get id = some r → Wf id r := run_wf h inv_empty.wf
  constructor
  · rintro ⟨hrepeat, -⟩
    have hflag : (synchronize scan (synchronize scan table).1).2 = false := by
      unfold ReadOnly at hrepeat
      rw [hrepeat]
    obtain ⟨-, hall⟩ := synchronize_false hflag
    have hdistinct := distinct_of_unchanged htells hall
    refine ⟨hdistinct, fun o ho r hr hunsettled => ?_⟩
    obtain ⟨hu, hagain⟩ := (unsettled_iff (hwf _ r hr) rfl).1 hunsettled
    have hsecond := hall o ho
    rw [get_synchronize_observed hwf hdistinct ho, hr] at hsecond
    unfold afterRow at hsecond
    rw [hu, if_neg Bool.false_ne_true, hagain] at hsecond
    cases hsecond
  · rintro ⟨hdistinct, hsettled⟩
    exact ⟨readOnly_of_settled hwf hdistinct hsettled, orderFree_of_distinct hwf hdistinct⟩

def requestedChanges : CampaignRecoveryObservation :=
  ⟨.rereview, ⟨.pullRequest, "root", "head", some "a/b", some 5, none⟩, .reviewerObjection, .orchestrator, "head:review", false, none⟩

def objectedReview : CampaignRecoveryObservation :=
  ⟨.rereview, ⟨.reviewJob, "worktree", "job", some "a/b", some 5, some "item"⟩, .reviewerObjection, .orchestrator, "1:1:1:completed",
    false, none⟩

/-- A scan of the objection, and of the changes requested that were observed before and are pushed again. -/
def bothObserved : Scan := { oneObserved objectedReview with observations := [objectedReview, requestedChanges] }

theorem shared_record_rewritten : ∃ l table, Run (step (fun _ _ => true)) OrdMap.empty l table ∧
    SignalTells bothObserved ∧ ¬(ReadOnly bothObserved table ∧ OrderFree bothObserved table) := by
  have hrun : Run (step (fun _ _ => true)) OrdMap.empty _ _ :=
    Run.single (show step (fun _ _ => true) OrdMap.empty (.scan (oneObserved requestedChanges)) = some _ from rfl)
  refine ⟨_, _, hrun, by unfold SignalTells; decide +kernel, ?_⟩
  rintro ⟨hrepeat, -⟩
  have hflag := congrArg Prod.snd hrepeat
  revert hflag
  decide +kernel

theorem repeated_scan_sample : (ReadOnly (oneObserved requestedChanges) OrdMap.empty ∧ OrderFree (oneObserved requestedChanges) OrdMap.empty) ↔
    Distinct (oneObserved requestedChanges) ∧ ∀ o ∈ (oneObserved requestedChanges).observations, ∀ r,
      (OrdMap.empty : Table).get ((oneObserved requestedChanges).idOf o) = some r → ¬Unsettled (oneObserved requestedChanges) r o := by
  have hstart : Run (step (fun _ _ => true)) OrdMap.empty [] OrdMap.empty := .nil
  refine repeated_scan_iff hstart ?_
  unfold SignalTells
  decide +kernel

end Wollipog.Campaign

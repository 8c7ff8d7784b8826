import Wollipog.Campaign.Scan
/-!
# Fenced — recovery is single-flight, bounded and fenced

Over the runs of scans and passes from an empty store, in any order and with any clock. The ceiling needs one
condition on the scans (`Reopens`).
-/
namespace Wollipog.Campaign

open Sys CAMPAIGN_RECOVERY_LIMITS

variable {scan : Scan} {table : Table} {id : Identity} {o : CampaignRecoveryObservation} {row : Option Row} {r : Row}

/-! ## What a scan writes -/

namespace Scan

theorem attempts_next (scan : Scan) (row : Option Row) (o : CampaignRecoveryObservation) :
    attempts (some (scan.next row o)) = attempts row := rfl

theorem dispatchFenced_unauthorized (h : scan.authorized = false) : dispatchFenced scan row o = true := by
  unfold dispatchFenced
  rw [h]
  rfl

theorem dispatchFenced_of_fenced (hr : r.record.dispatchFenced = true) (h : (scan.authorized && freshOccurrence (some r) o) = false) :
    dispatchFenced scan (some r) o = true := by
  unfold dispatchFenced
  rw [h, Option.any_some, hr, Bool.true_or, Bool.true_or, Bool.or_true]
  rfl

theorem state_resolved (h : o.resolved = true) : state scan row o = .resolved := by
  unfold state
  rw [if_pos h]

theorem state_ne_dispatched : state scan row o ≠ .dispatched := by
  unfold state
  split
  · exact fun h => by cases h
  · split
    · split
      · exact fun h => by cases h
      · exact fun h => by cases h
    · split
      · exact fun h => by cases h
      · split
        · exact fun h => by cases h
        · split
          · exact fun h => by cases h
          · split
            · exact fun h => by cases h
            · exact fun h => by cases h

theorem unauthorized_of_cancelled (h : state scan row o = .cancelled) : scan.authorized = false ∧ o.resolved = false ∧ o.owner ≠ .human := by
  unfold state at h
  split at h
  · cases h
  · rename_i hresolved
    split at h
    · rename_i hunauthorized
      rw [Bool.and_eq_true, Bool.not_eq_true', bne_iff_ne] at hunauthorized
      exact ⟨hunauthorized.1, Bool.eq_false_iff.2 hresolved, hunauthorized.2⟩
    · split at h
      · cases h
      · split at h
        · cases h
        · split at h
          · cases h
          · split at h
            · cases h
            · cases h

theorem state_hard (h : (firstReason scan row o).hard = true) :
    state scan row o = .blocked ∨ (state scan row o).terminal = true := by
  unfold state
  split
  · exact .inr rfl
  · split
    · split
      · exact .inl rfl
      · exact .inr rfl
    · exact .inl rfl

theorem of_state_due (h : state scan row o = .ready ∨ state scan row o = .backoff) :
    o.resolved = false ∧ scan.authorized = true ∧ o.owner = .orchestrator ∧ (firstReason scan row o).hard = false ∧
      (firstReason scan row o).human = false ∧ dispatchFenced scan row o = false := by
  unfold state at h
  split at h
  · rcases h with h | h <;> cases h
  · rename_i hresolved
    split at h
    · split at h <;> rcases h with h | h <;> cases h
    · rename_i hauthorized
      split at h
      · rcases h with h | h <;> cases h
      · rename_i hhard
        split at h
        · rcases h with h | h <;> cases h
        · rename_i hhuman
          split at h
          · rcases h with h | h <;> cases h
          · rename_i hfenced
            rw [Bool.or_eq_true, not_or, beq_iff_eq] at hhuman
            have howner : o.owner = .orchestrator := by
              cases ho : o.owner with
              | human => exact absurd ho hhuman.1
              | orchestrator => rfl
            have hscan : scan.authorized = true := by
              cases ha : scan.authorized with
              | true => rfl
              | false =>
                rw [ha, howner] at hauthorized
                exact absurd rfl hauthorized
            exact ⟨Bool.eq_false_iff.2 hresolved, hscan, howner, Bool.eq_false_iff.2 hhard, Bool.eq_false_iff.2 hhuman.2,
              Bool.eq_false_iff.2 hfenced⟩

theorem hard_reason : (reason scan row o).hard = (firstReason scan row o).hard := by
  unfold reason
  split
  · rename_i h
    simp only [Bool.and_eq_true, Bool.not_eq_true'] at h
    rw [h.1.2]
    rfl
  · rfl

theorem reason_of_hard (h : (firstReason scan row o).hard = true) : reason scan row o = firstReason scan row o := by
  unfold reason
  rw [h, Bool.not_true, Bool.and_false, Bool.false_and, if_neg Bool.false_ne_true]

end Scan

theorem escalates_hard {a b : CampaignRecoveryReason} (h : escalates a b = true) : b.hard = true := by
  cases a <;> cases b <;> first | rfl | cases h

theorem escalates_iff {a b : CampaignRecoveryReason} :
    escalates a b = true ↔ ∃ severity, stopSeverity a = some severity ∧ severity < (stopSeverity b).getD 0 := by
  unfold escalates
  cases stopSeverity a with
  | none => exact ⟨fun h => Bool.noConfusion h, fun ⟨_, h, _⟩ => by cases h⟩
  | some severity =>
    dsimp only
    rw [decide_eq_true_iff]
    exact ⟨fun h => ⟨severity, rfl, h⟩, fun ⟨_, h, hlt⟩ => by cases h; exact hlt⟩

theorem escalates_trans {a b c : CampaignRecoveryReason} (hab : escalates a b = true) (hbc : escalates b c = true) :
    escalates a c = true := by
  rw [escalates_iff] at hab hbc ⊢
  obtain ⟨s, ha, hlt⟩ := hab
  obtain ⟨s', hb, hlt'⟩ := hbc
  rw [hb, Option.getD_some] at hlt
  exact ⟨s, ha, hlt.trans hlt'⟩

structure Wf (id : Identity) (r : Row) : Prop where
  recordId : r.record.id = id
  action : r.record.action = id.action
  limit : r.record.maxAttempts = maxAttempts
  cancelled : r.record.state = .cancelled → r.record.dispatchFenced = true
  flight : r.record.state = .dispatched →
    r.record.dispatchFenced = false ∧ r.record.effectiveOwner = .orchestrator ∧ r.record.reason.hard = false
  blocked : r.record.reason.hard = true → r.record.state = .blocked ∨ r.record.state.terminal = true

theorem wf_next (h : scan.idOf o = id) : Wf id (scan.next row o) where
  recordId := h
  action := by rw [← h]; rfl
  limit := rfl
  cancelled hc := Scan.dispatchFenced_unauthorized (Scan.unauthorized_of_cancelled hc).1
  flight hd := absurd hd Scan.state_ne_dispatched
  blocked hh := Scan.state_hard (by rw [← Scan.hard_reason]; exact hh)

theorem drop_terminal (scan : Scan) (r : Row) : (scan.drop r).record.state.terminal = true := by
  unfold Scan.drop
  dsimp only
  split <;> rfl

theorem drop_fenced (scan : Scan) (h : r.record.dispatchFenced = true) : (scan.drop r).record.dispatchFenced = true := by
  unfold Scan.drop
  dsimp only
  split
  · rfl
  · exact h

theorem Wf.drop (h : Wf id r) (scan : Scan) : Wf id (scan.drop r) where
  recordId := h.recordId
  action := h.action
  limit := h.limit
  cancelled hc := by
    unfold Scan.drop at hc ⊢
    dsimp only at hc ⊢
    split at hc
    · cases hc
    · rename_i hnot
      rw [if_pos]
      rw [Bool.and_eq_true, not_and_or, Bool.not_eq_true, beq_iff_eq] at hnot
      rw [Bool.or_eq_true, Bool.not_eq_true', bne_iff_ne]
      exact hnot
  flight hd := by
    have hterminal := drop_terminal scan r
    rw [hd] at hterminal
    cases hterminal
  blocked _ := .inr (drop_terminal scan r)

theorem Wf.dispatched (h : Wf id r) {pass : Pass} (hdue : pass.due r.record = true) : Wf id (pass.dispatched r) where
  recordId := h.recordId
  action := h.action
  limit := h.limit
  cancelled hc := by cases hc
  flight _ := by
    obtain ⟨hfence, -, howner, hstate, -⟩ := Pass.due_iff.1 hdue
    refine ⟨hfence, howner, Bool.eq_false_iff.2 (fun hhard => ?_)⟩
    rcases h.blocked hhard with hb | hb
    · rcases hstate with hs | hs <;> rw [hs] at hb <;> cases hb
    · rcases hstate with hs | hs <;> rw [hs] at hb <;> cases hb
  blocked hhard := by
    obtain ⟨-, -, -, hstate, -⟩ := Pass.due_iff.1 hdue
    rcases h.blocked hhard with hb | hb
    · rcases hstate with hs | hs <;> rw [hs] at hb <;> cases hb
    · rcases hstate with hs | hs <;> rw [hs] at hb <;> cases hb

/-- **A scan reopens a wake in flight at its ceiling**: it is not stalled, and the observation gives a reason that
counts. -/
def Reopens (scan : Scan) (r : Row) (o : CampaignRecoveryObservation) : Prop :=
  r.record.state = .dispatched ∧ maxAttempts ≤ r.record.attempts ∧ r.signal = o.signal ∧ r.record.resource = o.resource ∧
    o.resolved = false ∧ Scan.stalled scan (some r) o = false ∧ r.record.reason ≠ o.reason ∧
    ((o.reason.hard = true ∧ o.reason ≠ .attemptsExhausted ∧ (scan.authorized = true ∨ o.owner = .human)) ∨
      (o.reason.hard = false ∧ o.reason.human = false ∧ o.owner = .orchestrator ∧ scan.authorized = true ∧
        r.record.policyRevision = scan.policyRevision))

structure Capped (r : Row) : Prop where
  attempts : r.record.attempts ≤ maxAttempts
  state : r.record.attempts = maxAttempts → r.record.state ≠ .ready ∧ r.record.state ≠ .backoff
  label : r.record.attempts = maxAttempts → r.record.reason.hard = true → r.record.state.terminal = false →
    r.record.reason = .attemptsExhausted

theorem currentDispatch_iff : Scan.currentDispatch (some r) o = true ↔
    r.record.state = .dispatched ∧ r.signal = o.signal ∧ r.record.resource = o.resource := by
  unfold Scan.currentDispatch Scan.changedResource
  simp only [Option.any_some, Bool.and_eq_true, beq_iff_eq, Bool.not_eq_true', bne_eq_false_iff_eq, and_assoc]

theorem in_flight (hmax : maxAttempts ≤ Scan.attempts row) (hresolved : o.resolved = false)
    (h : Scan.firstReason scan row o ≠ .attemptsExhausted) :
    ∃ r, row = some r ∧ r.record.state = .dispatched ∧ r.signal = o.signal ∧ r.record.resource = o.resource ∧
      Scan.stalled scan (some r) o = false := by
  unfold Scan.firstReason at h
  split at h
  · exact absurd rfl h
  · rename_i hnot
    rw [decide_eq_true hmax, hresolved, Bool.not_false, Bool.true_and, Bool.true_and, Bool.or_eq_true, not_or, Bool.not_eq_true',
      Bool.not_eq_false, Bool.not_eq_true] at hnot
    obtain ⟨hcurrent, hstalled⟩ := hnot
    cases row with
    | none => cases hcurrent
    | some r =>
      obtain ⟨hstate, hsignal, hresource⟩ := currentDispatch_iff.1 hcurrent
      exact ⟨r, rfl, hstate, hsignal, hresource, hstalled⟩

theorem firstReason_soft (hflight : r.record.reason.hard = false) (h : Scan.firstReason scan (some r) o ≠ .attemptsExhausted) :
    Scan.firstReason scan (some r) o = o.reason := by
  unfold Scan.firstReason at h ⊢
  split at h
  · exact absurd rfl h
  · rename_i hnot
    rw [if_neg hnot]
    dsimp only
    rw [hflight, Bool.false_and, Bool.false_and, Bool.false_and, if_neg Bool.false_ne_true]

theorem unchanged_in_flight (hflight : r.record.state = .dispatched) (hfence : r.record.dispatchFenced = false)
    (hsignal : r.signal = o.signal) (hresource : r.record.resource = o.resource) (hresolved : o.resolved = false)
    (hstalled : Scan.stalled scan (some r) o = false) (hrevision : r.record.policyRevision = scan.policyRevision)
    (howner : r.record.effectiveOwner = o.owner) (hreason : r.record.reason = Scan.reason scan (some r) o)
    (hfenced : Scan.dispatchFenced scan (some r) o = false) : scan.unchanged (some r) o = true := by
  unfold Scan.unchanged Scan.changedResource
  rw [Option.any_some, Option.any_some, hstalled, hsignal, hresource, hrevision, howner, ← hreason, hfence, hfenced, hresolved,
    hflight]
  simp [CampaignRecoveryState.terminal]

theorem capped_next (hrow : ∀ r, row = some r → Wf id r ∧ Capped r ∧ ¬Reopens scan r o) (hchanged : scan.unchanged row o = false) :
    Capped (scan.next row o) := by
  have hattempts : Scan.attempts row ≤ maxAttempts := by
    cases row with
    | none => exact Nat.zero_le _
    | some r => exact (hrow r rfl).2.1.attempts
  refine ⟨hattempts, ?_, ?_⟩
  · intro hmax
    have hnot : ¬(Scan.state scan row o = .ready ∨ Scan.state scan row o = .backoff) := by
      intro hdue
      obtain ⟨hresolved, hauthorized, howner, hhard, hhuman, hfenced⟩ := Scan.of_state_due hdue
      have hne : Scan.firstReason scan row o ≠ .attemptsExhausted := by
        intro he
        rw [he] at hhard
        cases hhard
      obtain ⟨r, rfl, hstate, hsignal, hresource, hstalled⟩ := in_flight (Nat.le_of_eq hmax.symm) hresolved hne
      obtain ⟨hwf, hcap, hreopens⟩ := hrow r rfl
      obtain ⟨hfence, hflight, hsoft⟩ := hwf.flight hstate
      have hfirst := firstReason_soft hsoft hne
      have hreason : Scan.reason scan (some r) o = o.reason := by
        unfold Scan.reason
        rw [hfenced, Bool.and_false, Bool.false_and, Bool.false_and, if_neg Bool.false_ne_true, hfirst]
      have hrevision : r.record.policyRevision = scan.policyRevision := by
        by_contra hother
        unfold Scan.dispatchFenced Scan.freshOccurrence at hfenced
        rw [Option.any_some, Option.any_some, hresource, bne_self_eq_false, bne_self_eq_false, bne_iff_ne.2 hother] at hfenced
        simp at hfenced
      refine hreopens ⟨hstate, Nat.le_of_eq hmax.symm, hsignal, hresource, hresolved, hstalled, ?_, .inr ?_⟩
      · intro hsame
        rw [unchanged_in_flight hstate hfence hsignal hresource hresolved hstalled hrevision (by rw [hflight, howner])
          (by rw [hreason, hsame]) hfenced] at hchanged
        cases hchanged
      · rw [hfirst] at hhard hhuman
        exact ⟨hhard, hhuman, howner, hauthorized, hrevision⟩
    exact ⟨fun h => hnot (.inl h), fun h => hnot (.inr h)⟩
  · intro hmax hhard hopen
    have hhard' : (Scan.firstReason scan row o).hard = true := by
      rw [← Scan.hard_reason]
      exact hhard
    change Scan.reason scan row o = .attemptsExhausted
    rw [Scan.reason_of_hard hhard']
    by_contra hne
    have hresolved : o.resolved = false := by
      cases hr : o.resolved with
      | false => rfl
      | true =>
        have hstate : (scan.next row o).record.state = .resolved := Scan.state_resolved hr
        rw [hstate] at hopen
        cases hopen
    obtain ⟨r, rfl, hstate, hsignal, hresource, hstalled⟩ := in_flight (Nat.le_of_eq hmax.symm) hresolved hne
    obtain ⟨hwf, hcap, hreopens⟩ := hrow r rfl
    obtain ⟨-, -, hsoft⟩ := hwf.flight hstate
    have hfirst := firstReason_soft hsoft hne
    rw [hfirst] at hhard' hne
    refine hreopens ⟨hstate, Nat.le_of_eq hmax.symm, hsignal, hresource, hresolved, hstalled, ?_, .inl ⟨hhard', hne, ?_⟩⟩
    · intro hsame
      rw [hsame, hhard'] at hsoft
      cases hsoft
    · -- an unauthorized scan closes the Orchestrator's record
      by_contra hnot
      rw [not_or, Bool.not_eq_true] at hnot
      obtain ⟨hunauthorized, howner⟩ := hnot
      have hclosed : (scan.next (some r) o).record.state = .cancelled := by
        change Scan.state scan (some r) o = .cancelled
        unfold Scan.state
        have huncertain : Scan.firstReason scan (some r) o ≠ .uncertainOutcome := by
          rw [hfirst]
          intro hu
          rw [hu] at hhard'
          cases hhard'
        rw [hresolved, if_neg Bool.false_ne_true, hunauthorized, bne_iff_ne.2 howner, Bool.not_false, Bool.true_and, if_pos rfl,
          if_neg huncertain]
      rw [hclosed] at hopen
      cases hopen

theorem Capped.drop (h : Capped r) (scan : Scan) : Capped (scan.drop r) where
  attempts := h.attempts
  state _ := by
    have hterminal := drop_terminal scan r
    constructor <;> intro hs <;> rw [hs] at hterminal <;> cases hterminal
  label _ _ hopen := by
    rw [drop_terminal scan r] at hopen
    cases hopen

theorem Capped.dispatched (h : Capped r) (hwf : Wf id r) {pass : Pass} (hdue : pass.due r.record = true) :
    Capped (pass.dispatched r) where
  attempts := by
    obtain ⟨-, -, -, hstate, -⟩ := Pass.due_iff.1 hdue
    refine Nat.lt_of_le_of_ne h.attempts (fun hmax => ?_)
    rcases hstate with hs | hs
    · exact (h.state hmax).1 hs
    · exact (h.state hmax).2 hs
  state _ := ⟨fun hs => (by cases hs), fun hs => (by cases hs)⟩
  label _ hhard _ := by
    rw [((hwf.dispatched hdue).flight rfl).2.2] at hhard
    cases hhard

end Wollipog.Campaign

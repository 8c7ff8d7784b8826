import Wollipog.Usage.Told
/-!
# Repeated — a snapshot that is told again

A snapshot whose tokens, cost and entries the row holds (`Holds`) changes nothing; a snapshot that was reconciled is
held from then on.
-/
namespace Wollipog.Usage

open Json (Text)

/-! ## Cost -/

def CostLe (a b : ℤ × ℤ) : Prop := a.1 < b.1 ∨ (a.1 = b.1 ∧ a.2 ≤ b.2)

theorem CostLe.refl (a : ℤ × ℤ) : CostLe a a := .inr ⟨rfl, le_rfl⟩

theorem CostLe.trans {a b c : ℤ × ℤ} (hab : CostLe a b) (hbc : CostLe b c) : CostLe a c := by
  unfold CostLe at *
  omega

def SessionUsage.cost (s : SessionUsage) : ℤ × ℤ := (s.metrics .costMicrousd, s.costRemainderPicousd)

def SessionSnapshot.cost (snapshot : SessionSnapshot) : ℤ × ℤ :=
  (usageMicroUsd snapshot.costUsd, ((usageCostParts snapshot.costUsd).microusd - usageMicroUsd snapshot.costUsd) * 1000000 +
    (usageCostParts snapshot.costUsd).remainderPicousd)

theorem carryOf_le (c : ℤ) : c - carryOf c * 1000000 ≤ 499999 := by
  unfold carryOf
  omega

theorem costLe_of_pico {a b : ℤ × ℤ} (hpico : a.1 * 1000000 + a.2 ≤ b.1 * 1000000 + b.2) (ha : -500000 ≤ a.2) (hb : b.2 ≤ 499999) :
    CostLe a b := by
  unfold CostLe
  omega

theorem pico_nonneg (value : Option ℚ) : 0 ≤ (usageCostParts value).pico := by
  cases value with
  | none => exact le_rfl
  | some v =>
    unfold usageCostParts CostParts.pico
    dsimp only
    split
    · exact le_rfl
    · rename_i hnonneg
      rw [not_lt] at hnonneg
      have hscaled : 0 ≤ min (v * 1000000) 1000000000000 := le_min (by linarith) (by norm_num)
      generalize min (v * 1000000) 1000000000000 = q at hscaled ⊢
      have hfloor := Int.floor_nonneg.2 hscaled
      have hle := Int.floor_le q
      have hround : 0 ≤ mathRound ((q - ⌊q⌋) * 1000000) := le_mathRound (by push_cast; linarith)
      split <;> dsimp only <;> omega

section Money

variable {rates : Pricing} {l : Ledgers} {sessionId : String} {dimensions : Dimensions}

theorem event_money (e : UsageEvent) (occurredAt : ℤ) (source : UsageSource) :
    let t := (recordUsageEventInTransaction rates l sessionId e occurredAt (some source) dimensions).session sessionId
    t.cost = (l.session sessionId).cost ∨ t.costRemainderPicousd ≤ 499999 := by
  dsimp only
  rw [recordUsageEvent_eq]
  dsimp only
  obtain ⟨hmetrics, hremainder⟩ := checkCoverage_booked (l.session sessionId) source
  split
  · rw [session_update_self]
    unfold bookEvent
    split
    · split
      · right
        unfold bookRecord
        dsimp only
        rw [session_update_self]
        exact carryOf_le _
      · left
        rw [session_update_self]
        exact Prod.ext (congrFun hmetrics _) hremainder
    · left
      rw [session_update_self]
      exact Prod.ext (congrFun hmetrics _) hremainder
  · left
    rw [session_update_self]
    exact Prod.ext (congrFun hmetrics _) hremainder

theorem event_cost_le (h : Agrees l) (e : UsageEvent) (occurredAt : ℤ) (source : UsageSource) :
    CostLe (l.session sessionId).cost
      ((recordUsageEventInTransaction rates l sessionId e occurredAt (some source) dimensions).session sessionId).cost := by
  rcases @event_money rates l sessionId dimensions e occurredAt source with hsame | hcarried
  · rw [hsame]
    exact .refl _
  · refine costLe_of_pico ?_ (h.remainder sessionId).1 hcarried
    have hcost := @recordUsageEvent_cost rates l sessionId e occurredAt dimensions (some source)
    have hpos : 0 ≤ eventPico rates (l.session sessionId) e (some source) dimensions := by
      unfold eventPico
      split
      · split
        · exact pico_nonneg _
        · exact le_rfl
      · exact le_rfl
    unfold SessionUsage.costPico at hcost
    unfold SessionUsage.cost
    dsimp only
    omega

theorem bookResiduals_carried (now : ℤ) (current : ℤ) (residuals : List PricedResidual) : ∀ acc : Ledgers × Option ℤ,
    (∃ x, acc.2 = some x ∧ x ≤ 499999) ∨ residuals ≠ [] →
      ∃ x, (residuals.foldl (bookResidual sessionId now dimensions current) acc).2 = some x ∧ x ≤ 499999 := by
  induction residuals with
  | nil =>
    intro acc h
    rcases h with h | h
    · exact h
    · exact absurd rfl h
  | cons r residuals ih =>
    intro acc _
    exact ih _ (.inl ⟨_, rfl, carryOf_le _⟩)

variable {snapshot : SessionSnapshot}

theorem reconcile_money {negotiates : Bool} (hcovers : coversNothing negotiates snapshot = false) (now : ℤ) :
    let s := l.session sessionId
    let r := reconciliation rates s snapshot dimensions
    let t := (reconcileUsageSnapshotInTransaction rates negotiates l sessionId snapshot now dimensions).session sessionId
    (r.residuals = [] → t.cost = (s.metrics .costMicrousd + (flatCost rates s r snapshot dimensions).1,
      (flatCost rates s r snapshot dimensions).2.2.getD s.costRemainderPicousd)) ∧
    (r.residuals ≠ [] → t.costRemainderPicousd ≤ 499999) := by
  dsimp only
  unfold reconcileUsageSnapshotInTransaction
  rw [if_neg (goes_of_covers hcovers)]
  dsimp only
  rw [session_update_self]
  generalize hs : l.session sessionId = s at *
  generalize reconciliation rates s snapshot dimensions = r at *
  generalize flatCost rates s r snapshot dimensions = flat
  have hflag := session_update_self l sessionId (fun s => { s with
      counts := if invalidatesCounts s r snapshot then { s.counts with complete := false } else s.counts })
  rw [hs] at hflag
  generalize l.update sessionId (fun s => { s with
      counts := if invalidatesCounts s r snapshot then { s.counts with complete := false } else s.counts }) = flagged at *
  refine ⟨fun hnone => ?_, fun hsome => ?_⟩
  · rw [hnone, List.foldl_nil]
    unfold SessionUsage.cost
    dsimp only
    rw [delta_session rfl, delta_remainder, hflag]
    rfl
  · obtain ⟨x, hx, hle⟩ := @bookResiduals_carried sessionId dimensions now s.costRemainderPicousd r.residuals
      (recordUsageDeltaInTransaction flagged sessionId
        (usageDelta r.inputTokens flat.1 ⟨r.inputTokens, 0, 0, r.outputTokens⟩ 0 0 flat.2.1) now dimensions, flat.2.2) (.inr hsome)
    rw [hx, Option.getD_some]
    exact hle

theorem absorbed_le (rates : Pricing) (s : SessionUsage) (snapshot : SessionSnapshot) (dimensions : Dimensions) :
    absorbedPico rates s snapshot dimensions ≤ residualPico rates s snapshot dimensions := by
  have hpos : 0 ≤ residualPico rates s snapshot dimensions := by
    unfold residualPico
    refine List.sum_nonneg (fun x hx => ?_)
    obtain ⟨r, -, rfl⟩ := List.mem_map.1 hx
    exact pico_nonneg _
  unfold absorbedPico reconciliation
  dsimp only
  split
  · exact min_le_right _ _
  · exact hpos

theorem flatCost_le {s : SessionUsage} (hs : -500000 ≤ s.costRemainderPicousd)
    (hnone : (reconciliation rates s snapshot dimensions).residuals = []) :
    let flat := flatCost rates s (reconciliation rates s snapshot dimensions) snapshot dimensions
    CostLe s.cost (s.metrics .costMicrousd + flat.1, flat.2.2.getD s.costRemainderPicousd) ∧
      CostLe snapshot.cost (s.metrics .costMicrousd + flat.1, flat.2.2.getD s.costRemainderPicousd) := by
  have habsorbed : (reconciliation rates s snapshot dimensions).absorbedPico = 0 := by
    refine le_antisymm ?_ (absorbed_nonneg rates s snapshot dimensions)
    have hle := absorbed_le rates s snapshot dimensions
    unfold residualPico absorbedPico at hle
    rw [hnone] at hle
    exact hle
  have hgrew := grew_iff rates s snapshot dimensions
  have hadopts := adopts_iff rates s snapshot dimensions
  have hcost : snapshot.cost = ((reconciliation rates s snapshot dimensions).targetMicrousd,
    (reconciliation rates s snapshot dimensions).snapshotRemainder) := rfl
  rw [hcost]
  dsimp only
  generalize reconciliation rates s snapshot dimensions = r at *
  unfold flatCost SessionUsage.cost CostLe
  rw [if_neg (by omega)]
  dsimp only
  split
  · rename_i hg
    rw [hgrew] at hg
    have ha : r.adoptsSnapshotCost = true := by
      rw [hadopts]
      omega
    rw [if_pos ha]
    dsimp only
    rw [Option.getD_some]
    omega
  · rename_i hg
    rw [hgrew] at hg
    split
    · have hcarry := carryOf_le (s.costRemainderPicousd + (usageCostParts (some (flatPrice rates r dimensions).costUsd)).remainderPicousd)
      have hpico := pico_nonneg (some (flatPrice rates r dimensions).costUsd)
      unfold CostParts.pico at hpico
      dsimp only
      rw [Option.getD_some]
      omega
    · dsimp only
      split
      · rename_i ha
        rw [hadopts] at ha
        rw [Option.getD_some]
        omega
      · rw [Option.getD_none]
        omega

theorem mem_reconcile {negotiates : Bool} (hcovers : coversNothing negotiates snapshot = false) (now : ℤ) :
    sessionId ∈ (reconcileUsageSnapshotInTransaction rates negotiates l sessionId snapshot now dimensions).sessions.map Prod.fst := by
  unfold reconcileUsageSnapshotInTransaction
  rw [if_neg (goes_of_covers hcovers)]
  exact Tally.mem_keys_upsert _ _ _ _

/-- **After a snapshot the cost is no less than it was, and no less than the snapshot's.** -/
theorem reconcile_cost_le (h : Agrees l) {negotiates : Bool} (hcovers : coversNothing negotiates snapshot = false) (now : ℤ) :
    let t := (reconcileUsageSnapshotInTransaction rates negotiates l sessionId snapshot now dimensions).session sessionId
    CostLe (l.session sessionId).cost t.cost ∧ CostLe snapshot.cost t.cost := by
  dsimp only
  obtain ⟨hflat, hcarried⟩ := @reconcile_money rates l sessionId dimensions snapshot negotiates hcovers now
  have hrem := (h.remainder sessionId).1
  by_cases hnone : (reconciliation rates (l.session sessionId) snapshot dimensions).residuals = []
  · rw [hflat hnone]
    exact flatCost_le hrem hnone
  · have hspec := (@reconcile_spec rates sessionId now dimensions snapshot l h negotiates hcovers).2.2
    have habsorbed := absorbed_le rates (l.session sessionId) snapshot dimensions
    have hsnapshot : snapshot.costPico = snapshot.cost.1 * 1000000 + snapshot.cost.2 :=
      snapshot_costPico rates (l.session sessionId) snapshot dimensions
    have hsnapshotRem : -500000 ≤ snapshot.cost.2 := (usageCostParts_remainder snapshot.costUsd).1
    have hflatPos : 0 ≤ flatPico rates (l.session sessionId) snapshot dimensions := by
      unfold flatPico
      dsimp only
      split
      · exact pico_nonneg _
      · exact le_rfl
    have hleft := le_max_left (l.session sessionId).costPico snapshot.costPico
    have hright := le_max_right (l.session sessionId).costPico snapshot.costPico
    generalize max (l.session sessionId).costPico snapshot.costPico = top at *
    refine ⟨costLe_of_pico ?_ hrem (hcarried hnone), costLe_of_pico ?_ hsnapshotRem (hcarried hnone)⟩
    · have hle : (l.session sessionId).costPico ≤ ((reconcileUsageSnapshotInTransaction rates negotiates l sessionId snapshot now
        dimensions).session sessionId).costPico := by linarith
      exact hle
    · rw [← hsnapshot]
      have hle : snapshot.costPico ≤ ((reconcileUsageSnapshotInTransaction rates negotiates l sessionId snapshot now
        dimensions).session sessionId).costPico := by linarith
      exact hle

end Money

/-- **The row holds what a snapshot tells**: its tokens, its cost and its entries. -/
structure Holds (snapshot : SessionSnapshot) (s : SessionUsage) : Prop where
  epoch : s.runnerHistoryEpoch = snapshot.historyEpoch
  covered : snapshot.seq ≤ s.coveredThroughSeq
  tokens : ∀ side : Side, side.total snapshot ≤ s.metrics side.metric
  cost : CostLe snapshot.cost s.cost
  entries : s.counts.complete = true → ∀ v, snapshot.ratePricedUsage = some v → parseRatePricedUsage v = some v ∧
    ∀ e ∈ v, ratePricedUsageKey e ∈ s.counts.rows.keys ∧ ∀ bucket, e.count bucket ≤ s.counts.seen (ratePricedUsageKey e) bucket
  size : s.counts.rows.size ≤ ratePricedUsageMaxEntries * 2

section Holds

variable {rates : Pricing} {l : Ledgers} {sessionId : String} {dimensions : Dimensions} {snapshot : SessionSnapshot} {s : SessionUsage}

theorem missing_zero {c : Ingested} {e : RatePricedUsageTotal} (h : ∀ bucket, e.count bucket ≤ c.seen (ratePricedUsageKey e) bucket) :
    missing c e = fun _ => 0 := by
  funext bucket
  exact Nat.sub_eq_zero_of_le (h bucket)

theorem Holds.nothing_missing (h : Holds snapshot s) (rates : Pricing) (dimensions : Dimensions) :
    (reconciliation rates s snapshot dimensions).residuals = [] ∧
    (s.counts.complete = true → (reconciliation rates s snapshot dimensions).entries = snapshot.ratePricedUsage) ∧
    (s.counts.complete = false → (reconciliation rates s snapshot dimensions).entries = none) := by
  have hentries : (reconciliation rates s snapshot dimensions).entries = usableEntries s.counts snapshot.ratePricedUsage := rfl
  cases hcomplete : s.counts.complete with
  | false =>
    have hnone : (reconciliation rates s snapshot dimensions).entries = none := by
      rw [hentries]
      unfold usableEntries
      rw [hcomplete, if_neg Bool.false_ne_true]
    exact ⟨residuals_of_none hnone, fun hc => (by cases hc), fun _ => hnone⟩
  | true =>
    cases hvalue : snapshot.ratePricedUsage with
    | none =>
      have hnone : (reconciliation rates s snapshot dimensions).entries = none := by
        rw [hentries, hvalue]
        unfold usableEntries
        rw [hcomplete, if_pos rfl]
        rfl
      exact ⟨residuals_of_none hnone, fun _ => hnone, fun hc => (by cases hc)⟩
    | some v =>
      obtain ⟨hparse, hseen⟩ := h.entries hcomplete v hvalue
      have hknown : v.filter (fun e => (s.counts.rows.get (ratePricedUsageKey e)).isNone) = [] := by
        refine List.filter_eq_nil_iff.2 (fun e he hnone => ?_)
        obtain ⟨x, hx⟩ := OrdMap.mem_keys_iff.1 (hseen e he).1
        rw [hx] at hnone
        cases hnone
      have hresiduals : ratePricedResiduals v s.counts = some [] := by
        have hsize := h.size
        unfold ratePricedResiduals
        rw [hknown, List.length_nil, if_neg (by omega)]
        refine congrArg some (List.filter_eq_nil_iff.2 (fun r hr hcarries => ?_))
        obtain ⟨e, he, rfl⟩ := List.mem_map.1 hr
        dsimp only at hcarries
        rw [missing_zero (hseen e he).2] at hcarries
        cases hcarries
      have hsome : usableEntries s.counts snapshot.ratePricedUsage = some v := by
        unfold usableEntries
        rw [hcomplete, if_pos rfl, hvalue, Option.bind_some, hparse]
        refine Option.filter_eq_some_iff.2 ⟨rfl, ?_⟩
        rw [hresiduals]
        rfl
      refine ⟨?_, fun _ => hsome, fun hc => (by cases hc)⟩
      unfold reconciliation
      dsimp only
      rw [hsome, Option.bind_some, hresiduals]
      rfl

theorem Holds.nothing_left (h : Holds snapshot s) (rates : Pricing) (dimensions : Dimensions) :
    (reconciliation rates s snapshot dimensions).inputTokens = 0 ∧ (reconciliation rates s snapshot dimensions).outputTokens = 0 ∧
    invalidatesCounts s (reconciliation rates s snapshot dimensions) snapshot = false ∧
    (flatCost rates s (reconciliation rates s snapshot dimensions) snapshot dimensions).1 = 0 ∧
    (flatCost rates s (reconciliation rates s snapshot dimensions) snapshot dimensions).2.1 = none ∧
    (flatCost rates s (reconciliation rates s snapshot dimensions) snapshot dimensions).2.2.getD s.costRemainderPicousd =
      s.costRemainderPicousd := by
  obtain ⟨hresiduals, hcomplete, -⟩ := h.nothing_missing rates dimensions
  have htokens : ∀ side : Side, side.residual (reconciliation rates s snapshot dimensions) = 0 := by
    intro side
    rw [residual_eq, hresiduals, List.map_nil, List.sum_nil]
    have hside := h.tokens side
    omega
  have hinput : (reconciliation rates s snapshot dimensions).inputTokens = 0 := htokens .input
  have houtput : (reconciliation rates s snapshot dimensions).outputTokens = 0 := htokens .output
  have hno : (reconciliation rates s snapshot dimensions).residualTokens = false := by
    unfold Reconciliation.residualTokens
    rw [hinput, houtput]
    rfl
  have hvalid : invalidatesCounts s (reconciliation rates s snapshot dimensions) snapshot = false := by
    unfold invalidatesCounts
    cases hc : s.counts.complete with
    | false => rfl
    | true =>
      rw [hcomplete hc, hno, Bool.true_and]
      cases snapshot.ratePricedUsage <;> rfl
  have hgrew := grew_iff rates s snapshot dimensions
  have hadopts := adopts_iff rates s snapshot dimensions
  have hcost : CostLe ((reconciliation rates s snapshot dimensions).targetMicrousd,
    (reconciliation rates s snapshot dimensions).snapshotRemainder) s.cost := h.cost
  have habsorbed : ¬0 < (reconciliation rates s snapshot dimensions).absorbedPico := by
    intro hpos
    have hg := hgrew.1 (absorbed_grew hpos)
    unfold CostLe SessionUsage.cost at hcost
    dsimp only at hcost
    omega
  refine ⟨hinput, houtput, hvalid, ?_⟩
  generalize reconciliation rates s snapshot dimensions = r at *
  unfold CostLe SessionUsage.cost at hcost
  dsimp only at hcost
  have hnot : ¬r.providerCostGrew = true := by
    rw [hgrew]
    omega
  unfold flatCost
  rw [if_neg habsorbed, if_neg hnot, hno, if_neg Bool.false_ne_true]
  refine ⟨rfl, rfl, ?_⟩
  dsimp only
  split
  · rename_i ha
    rw [hadopts] at ha
    rw [Option.getD_some]
    omega
  · rfl

theorem Holds.accounted (h : Holds snapshot s) (rates : Pricing) (dimensions : Dimensions) :
    (reconciliation rates s snapshot dimensions).entries.elim s.counts (accountEntries s.counts) = s.counts := by
  obtain ⟨-, hcomplete, hincomplete⟩ := h.nothing_missing rates dimensions
  cases hc : s.counts.complete with
  | false =>
    rw [hincomplete hc]
    rfl
  | true =>
    rw [hcomplete hc]
    cases hvalue : snapshot.ratePricedUsage with
    | none => rfl
    | some v =>
      obtain ⟨-, hseen⟩ := h.entries hc v hvalue
      have hrows : s.counts.rows.setAll ratePricedUsageKey
          (fun e bucket => max (s.counts.seen (ratePricedUsageKey e) bucket) (e.count bucket)) v = s.counts.rows := by
        refine OrdMap.setAll_eq_self _ _ (fun e he => ?_)
        obtain ⟨x, hx⟩ := OrdMap.mem_keys_iff.1 (hseen e he).1
        have hsame : x = fun bucket => max (s.counts.seen (ratePricedUsageKey e) bucket) (e.count bucket) := by
          funext bucket
          have hle := (hseen e he).2 bucket
          rw [max_eq_left hle]
          unfold Ingested.seen
          rw [hx]
          rfl
        rw [hx, hsame]
      exact congrArg (fun rows => ({ s.counts with rows := rows } : Ingested)) hrows

/-- **A snapshot that the row holds changes nothing.** -/
theorem Holds.unchanged (h : Holds snapshot (l.session sessionId)) (hrow : sessionId ∈ l.sessions.map Prod.fst) (negotiates : Bool) (now : ℤ) :
    reconcileUsageSnapshotInTransaction rates negotiates l sessionId snapshot now dimensions = l := by
  have hself : ∀ f : SessionUsage → SessionUsage, f (l.session sessionId) = l.session sessionId → l.update sessionId f = l := by
    intro f hf
    unfold Ledgers.update
    rw [Tally.upsert_eq_self hrow hf]
  obtain ⟨hresiduals, -, -⟩ := h.nothing_missing rates dimensions
  obtain ⟨hinput, houtput, hvalid, hmicrousd, hsource, hremainder⟩ := h.nothing_left rates dimensions
  have haccounted := h.accounted rates dimensions
  have hepoch := h.epoch
  have hcovered := h.covered
  unfold reconcileUsageSnapshotInTransaction
  split
  · rfl
  · dsimp only
    rw [hresiduals, hinput, houtput, hmicrousd, hsource, List.foldl_nil]
    dsimp only
    rw [hself _ (by rw [hvalid, if_neg Bool.false_ne_true])]
    have hnothing : booksNothing (usageDelta (0 : ℕ) 0 ⟨0, 0, 0, 0⟩ 0 0 none) = true := rfl
    unfold recordUsageDeltaInTransaction
    rw [if_pos hnothing]
    refine hself _ ?_
    rw [hremainder, haccounted, if_pos hepoch, max_eq_left hcovered, ← hepoch]

/-! ## What a step keeps -/

structure Grows (c c' : Ingested) : Prop where
  complete : c'.complete = true → c.complete = true
  seen : ∀ (k : Text) (bucket : RatePricedUsageBucket), c.seen k bucket ≤ c'.seen k bucket
  keys : ∀ k, k ∈ c.rows.keys → k ∈ c'.rows.keys

theorem Grows.refl (c : Ingested) : Grows c c := ⟨id, fun k bucket => Nat.le_refl (c.seen k bucket), fun _ => id⟩

theorem countEvent_grows {c : Ingested} (e : UsageEvent) (hsize : c.rows.size ≤ ratePricedUsageMaxEntries * 2) : Grows c (countEvent c e) := by
  obtain ⟨-, hcomplete, hseen, hkeys⟩ := countEvent_spec e hsize
  exact ⟨fun h => (hcomplete h).1, hseen, hkeys⟩

theorem countSnapshot_grows (s : SessionUsage) (rates : Pricing) (snapshot : SessionSnapshot) (dimensions : Dimensions) :
    Grows s.counts (countSnapshot s (reconciliation rates s snapshot dimensions) snapshot) := by
  have hflag : Grows s.counts (if invalidatesCounts s (reconciliation rates s snapshot dimensions) snapshot
      then { s.counts with complete := false } else s.counts) := by
    split
    · exact ⟨fun h => (by cases h), fun k bucket => Nat.le_refl (s.counts.seen k bucket), fun _ => id⟩
    · exact .refl _
  unfold countSnapshot
  dsimp only
  generalize (if invalidatesCounts s (reconciliation rates s snapshot dimensions) snapshot then { s.counts with complete := false }
    else s.counts) = c at hflag ⊢
  cases hes : (reconciliation rates s snapshot dimensions).entries with
  | none => exact hflag
  | some es =>
    obtain ⟨-, -, hnodup, -, -⟩ := usableEntries_spec hes
    obtain ⟨hmem, hnot, hkeys, -⟩ := accountEntries_spec (c := c) hnodup
    rw [Option.elim_some]
    refine ⟨hflag.complete, fun k bucket => (hflag.seen k bucket).trans ?_, fun k hk => hkeys k (hflag.keys k hk)⟩
    by_cases hk : k ∈ es.map ratePricedUsageKey
    · obtain ⟨e, he, rfl⟩ := List.mem_map.1 hk
      rw [(hmem e he).2]
      exact le_max_left _ _
    · rw [hnot k hk]

structure Rises (epoch : Option ℕ) (s t : SessionUsage) : Prop where
  epoch : s.runnerHistoryEpoch = epoch → t.runnerHistoryEpoch = epoch
  covered : s.coveredThroughSeq ≤ t.coveredThroughSeq
  tokens : ∀ side : Side, s.metrics side.metric ≤ t.metrics side.metric
  cost : CostLe s.cost t.cost
  counts : Grows s.counts t.counts

theorem Rises.refl (epoch : Option ℕ) (s : SessionUsage) : Rises epoch s s :=
  ⟨id, Nat.le_refl _, fun _ => le_rfl, .refl _, .refl _⟩

/-- **What a row holds it keeps holding.** -/
theorem Holds.rises {t : SessionUsage} (h : Holds snapshot s) (hr : Rises snapshot.historyEpoch s t)
    (hsize : t.counts.rows.size ≤ ratePricedUsageMaxEntries * 2) : Holds snapshot t where
  epoch := hr.epoch h.epoch
  covered := h.covered.trans hr.covered
  tokens side := (h.tokens side).trans (hr.tokens side)
  cost := h.cost.trans hr.cost
  entries := by
    intro hcomplete v hv
    obtain ⟨hparse, hseen⟩ := h.entries (hr.counts.complete hcomplete) v hv
    exact ⟨hparse, fun e he => ⟨hr.counts.keys _ (hseen e he).1, fun bucket => ((hseen e he).2 bucket).trans (hr.counts.seen _ bucket)⟩⟩
  size := hsize

variable {log : List UsageEvent} {epoch : Option ℕ}

theorem Books.tokens_le {t : SessionUsage} (hs : Books log epoch s) (ht : Books log epoch t) (h : s.coveredThroughSeq ≤ t.coveredThroughSeq)
    (side : Side) : s.metrics side.metric ≤ t.metrics side.metric := by
  rw [hs.tokens side, ht.tokens side]
  exact Int.ofNat_le.2 (tokensThrough_mono side log h)

theorem event_rises (hagrees : Agrees l) (h : Books log epoch (l.session sessionId)) {i : ℕ} {e : UsageEvent} (he : log[i]? = some e)
    (hi : i ≤ (l.session sessionId).coveredThroughSeq) (occurredAt : ℤ) :
    Rises epoch (l.session sessionId)
      ((recordUsageEventInTransaction rates l sessionId e occurredAt (some ⟨epoch, i + 1⟩) dimensions).session sessionId) := by
  obtain ⟨hbooks, hcovered⟩ := @Books.event rates l sessionId log epoch dimensions h i e he hi occurredAt
  obtain ⟨hepoch, hskips, hcounts⟩ := @event_row rates l sessionId e occurredAt dimensions epoch (h.epoch.imp id And.left) (i + 1)
  have hle := (le_max_left _ _).trans hcovered.ge
  refine ⟨fun _ => hepoch, hle, h.tokens_le hbooks hle, event_cost_le hagrees e occurredAt _, ?_⟩
  by_cases hi : i + 1 ≤ (l.session sessionId).coveredThroughSeq
  · rw [(hskips hi).2.2.1]
    exact .refl _
  · rw [(hcounts (Nat.lt_of_not_le hi)).2.1]
    exact countEvent_grows e h.size

theorem reconcile_rises (hagrees : Agrees l) (h : Books log epoch (l.session sessionId)) (ht : Truthful log epoch snapshot)
    (negotiates : Bool) (now : ℤ) : Rises epoch (l.session sessionId)
      ((reconcileUsageSnapshotInTransaction rates negotiates l sessionId snapshot now dimensions).session sessionId) := by
  obtain ⟨hbooks, hcovered⟩ := @Books.reconciled rates l sessionId log epoch dimensions snapshot h ht negotiates now
  cases hcovers : coversNothing negotiates snapshot with
  | true =>
    rw [reconcile_covers_nothing hcovers]
    exact .refl _ _
  | false =>
    obtain ⟨-, hcounts, hepoch, -⟩ := @reconcile_row rates sessionId now dimensions l negotiates snapshot hcovers
    have hle := (le_max_left _ _).trans hcovered.ge
    refine ⟨fun _ => hepoch.trans ht.epoch, hle, h.tokens_le hbooks hle, (reconcile_cost_le hagrees hcovers now).1, ?_⟩
    rw [hcounts]
    exact countSnapshot_grows _ _ _ _

/-- **A snapshot that was reconciled is held.** -/
theorem reconcile_holds (hagrees : Agrees l) (h : Books log epoch (l.session sessionId)) (ht : Truthful log epoch snapshot)
    {negotiates : Bool} (hcovers : coversNothing negotiates snapshot = false) (now : ℤ) : Holds snapshot
      ((reconcileUsageSnapshotInTransaction rates negotiates l sessionId snapshot now dimensions).session sessionId) := by
  obtain ⟨hbooks, hcovered⟩ := @Books.reconciled rates l sessionId log epoch dimensions snapshot h ht negotiates now
  obtain ⟨-, hcounts, hepoch, -⟩ := @reconcile_row rates sessionId now dimensions l negotiates snapshot hcovers
  have hle := (le_max_right _ _).trans hcovered.ge
  refine ⟨hepoch, hle, fun side => ?_, (reconcile_cost_le hagrees hcovers now).2, ?_, hbooks.size⟩
  · rw [ht.total side, hbooks.tokens side]
    exact Int.ofNat_le.2 (tokensThrough_mono side log hle)
  · rw [hcounts]
    intro hcomplete v hv
    unfold countSnapshot at hcomplete ⊢
    dsimp only at hcomplete ⊢
    cases hes : (reconciliation rates (l.session sessionId) snapshot dimensions).entries with
    | none =>
      rw [hes, Option.elim_none] at hcomplete
      by_cases hflag : invalidatesCounts (l.session sessionId) (reconciliation rates (l.session sessionId) snapshot dimensions) snapshot = true
      · rw [if_pos hflag] at hcomplete
        cases hcomplete
      · rw [if_neg hflag] at hcomplete
        unfold invalidatesCounts at hflag
        rw [hcomplete, hv, hes] at hflag
        exact absurd rfl hflag
    | some es =>
      obtain ⟨-, hvalue, hnodup, -, -⟩ := usableEntries_spec hes
      obtain rfl : es = v := Option.some.inj (hvalue.symm.trans hv)
      obtain ⟨hmem, -⟩ := accountEntries_spec (c := if invalidatesCounts (l.session sessionId)
        (reconciliation rates (l.session sessionId) snapshot dimensions) snapshot then { (l.session sessionId).counts with complete := false }
        else (l.session sessionId).counts) hnodup
      rw [Option.elim_some]
      refine ⟨usableEntries_parse hes, fun e he => ⟨(hmem e he).1, fun bucket => ?_⟩⟩
      rw [(hmem e he).2]
      exact le_max_right _ _

theorem mem_keys_of_seen {c : Ingested} {k : Text} {bucket : RatePricedUsageBucket} (h : 0 < c.seen k bucket) : k ∈ c.rows.keys := by
  unfold Ingested.seen at h
  cases hget : c.rows.get k with
  | none =>
    rw [hget] at h
    exact absurd h (Nat.lt_irrefl 0)
  | some v => exact OrdMap.mem_keys_iff.2 ⟨v, hget⟩

theorem Books.mem_keys (h : Books log epoch s) (hshows : ShowsTokens log) (hcomplete : s.counts.complete = true)
    {r : RatePricedUsageTotal} (hr : r ∈ recordsThrough log s.coveredThroughSeq) : ratePricedUsageKey r ∈ s.counts.rows.keys := by
  have hone : ∀ side : Side, r.count side.bucket ≤ s.counts.seen (ratePricedUsageKey r) side.bucket := by
    intro side
    rw [h.seen hcomplete]
    exact List.single_le_sum (fun x _ => Nat.zero_le x) _
      (List.mem_map_of_mem (List.mem_filter.2 ⟨hr, decide_eq_true rfl⟩))
  obtain ⟨rest, -, hrest⟩ := through_split log h.covered
  have hmem : r ∈ recordsThrough log log.length := by
    rw [hrest]
    exact List.mem_append_left _ hr
  rcases hshows r hmem with hpos | hpos
  · exact mem_keys_of_seen (hpos.trans_le (hone .input))
  · exact mem_keys_of_seen (hpos.trans_le (hone .output))

theorem Books.holds_older (h : Books log epoch s) (ht : Truthful log epoch snapshot) (hseq : snapshot.seq < s.coveredThroughSeq)
    (hcost : CostLe snapshot.cost s.cost)
    (hentries : ∀ v, snapshot.ratePricedUsage = some v → parseRatePricedUsage v = some v ∧ ShowsTokens log) : Holds snapshot s := by
  have hepoch : s.runnerHistoryEpoch = epoch := by
    rcases h.epoch with hepoch | ⟨-, hzero⟩
    · exact hepoch
    · rw [hzero] at hseq
      exact absurd hseq (Nat.not_lt_zero _)
  refine ⟨hepoch.trans ht.epoch.symm, hseq.le, fun side => ?_, hcost, fun hcomplete v hv => ?_, h.size⟩
  · rw [ht.total side, h.tokens side]
    exact Int.ofNat_le.2 (tokensThrough_mono side log hseq.le)
  · obtain ⟨hparse, hshows⟩ := hentries v hv
    obtain ⟨-, hkeys, hcount⟩ := accrued_entries (ht.entries v hv)
    refine ⟨hparse, fun e he => ⟨?_, fun bucket => ?_⟩⟩
    · obtain ⟨r, hr, hkey⟩ := List.mem_map.1 ((hkeys _).1 (List.mem_map_of_mem he))
      obtain ⟨rest, -, hrest⟩ := through_split log hseq.le
      rw [← hkey]
      refine h.mem_keys hshows hcomplete ?_
      rw [hrest]
      exact List.mem_append_left _ hr
    · have hmono := amount_mono log hseq.le (ratePricedUsageKey e) bucket
      have hall := h.all hshows hcomplete (ratePricedUsageKey e) bucket
      have hsame : recordsThrough log snapshot.seq = records ((log.take snapshot.seq).map UsageEvent.payload) := rfl
      rw [hcount e he bucket, ← hsame]
      omega

end Holds

end Wollipog.Usage

import Wollipog.Usage.Ledgers
/-!
# Exact — the usage ledgers agree to the pico-dollar

Every delta goes to the session, to its model and to the hour; a roll-up moves amounts and loses none.
-/
namespace Wollipog.Usage

open Json (Text)

theorem carryOf_bounds (c : ℤ) : -500000 ≤ c - carryOf c * 1000000 ∧ c - carryOf c * 1000000 ≤ 500000 := by
  unfold carryOf
  omega

variable {q : ℚ} {z : ℤ} {negotiates : Bool} {sessionId : String} {l : Ledgers} {rates : Pricing}

theorem le_mathRound (h : (z : ℚ) ≤ q + 1 / 2) : z ≤ mathRound q := Int.le_floor.2 h

theorem mathRound_le (h : q + 1 / 2 < (z : ℚ) + 1) : mathRound q ≤ z := by
  have hlt : mathRound q < z + 1 := by
    refine Int.floor_lt.2 ?_
    push_cast
    exact h
  omega

theorem usageCostParts_remainder (value : Option ℚ) :
    -500000 ≤ ((usageCostParts value).microusd - usageMicroUsd value) * 1000000 + (usageCostParts value).remainderPicousd ∧
      ((usageCostParts value).microusd - usageMicroUsd value) * 1000000 + (usageCostParts value).remainderPicousd ≤ 500000 := by
  cases value with
  | none => exact ⟨by decide, by decide⟩
  | some v =>
    unfold usageCostParts usageMicroUsd
    dsimp only
    split
    · exact ⟨by decide, by decide⟩
    · rename_i hnonneg
      rw [not_lt] at hnonneg
      by_cases hcap : v * 1000000 < 1000000000000
      · -- below the cap the rounded micro-dollars are the floor, or one more from a half on
        rw [min_eq_left hcap.le]
        have hfloor := Int.floor_le (v * 1000000)
        have hfrac := Int.lt_floor_add_one (v * 1000000)
        generalize ⌊v * 1000000⌋ = m at hfloor hfrac ⊢
        have hround : mathRound (v * 1000000) ≤ 1000000000000 := by
          refine mathRound_le ?_
          push_cast
          linarith
        rw [min_eq_left hround]
        by_cases hhalf : v * 1000000 - m < 1 / 2
        · have ht : mathRound (v * 1000000) = m := by
            refine le_antisymm (mathRound_le (by linarith)) (le_mathRound (by linarith))
          have hlow : 0 ≤ mathRound ((v * 1000000 - m) * 1000000) := le_mathRound (by push_cast; linarith)
          have hhigh : mathRound ((v * 1000000 - m) * 1000000) ≤ 500000 := mathRound_le (by push_cast; linarith)
          rw [ht]
          split
          · rename_i hcarry
            omega
          · dsimp only
            omega
        · rw [not_lt] at hhalf
          have ht : mathRound (v * 1000000) = m + 1 := by
            refine le_antisymm (mathRound_le (by push_cast; linarith)) (le_mathRound (by push_cast; linarith))
          have hlow : 500000 ≤ mathRound ((v * 1000000 - m) * 1000000) := le_mathRound (by push_cast; linarith)
          rw [ht]
          split
          · dsimp only
            omega
          · rename_i hcarry
            dsimp only
            omega
      · rw [not_lt] at hcap
        rw [min_eq_right hcap]
        have hround : 1000000000000 ≤ mathRound (v * 1000000) := le_mathRound (by push_cast; linarith)
        rw [min_eq_right hround]
        have hfloor : ⌊(1000000000000 : ℚ)⌋ = 1000000000000 := by
          have hcast : ((1000000000000 : ℤ) : ℚ) = 1000000000000 := by norm_num
          rw [← hcast, Int.floor_intCast]
        rw [hfloor]
        have hzero : mathRound (((1000000000000 : ℚ) - ((1000000000000 : ℤ) : ℚ)) * 1000000) = 0 := by
          refine le_antisymm (mathRound_le (by push_cast; norm_num)) (le_mathRound (by push_cast; norm_num))
        rw [hzero]
        exact ⟨by decide, by decide⟩

section Deltas

variable {l : Ledgers} {sessionId : String} {amount : Metrics} {at_ : ℤ} {dimensions : Dimensions}

theorem session_update_self (l : Ledgers) (sessionId : String) (f : SessionUsage → SessionUsage) :
    (l.update sessionId f).session sessionId = f (l.session sessionId) :=
  Tally.get_upsert_self _ _ _ _

theorem session_update_of_ne (l : Ledgers) {sessionId j : String} (h : j ≠ sessionId) (f : SessionUsage → SessionUsage) :
    (l.update sessionId f).session j = l.session j :=
  Tally.get_upsert_of_ne _ h _ _

/-- The measures that `recordUsageDeltaInTransaction` looks at. -/
def Metric.checked : Metric → Bool
  | .inputTokens | .outputTokens | .costMicrousd | .providerReportedRecords | .modelPricedRecords | .unpricedRecords => true
  | _ => false

theorem booksNothing_zero (h : booksNothing amount = true) {m : Metric} (hm : m.checked = true) : amount m = 0 := by
  unfold booksNothing at h
  simp only [Bool.and_eq_true, beq_iff_eq] at h
  cases m <;> simp_all [Metric.checked]

/-- **What a delta does to its session**: the measures it looks at grow by it. -/
theorem delta_session {m : Metric} (hm : m.checked = true) :
    ((recordUsageDeltaInTransaction l sessionId amount at_ dimensions).session sessionId).metrics m
      = (l.session sessionId).metrics m + amount m := by
  unfold recordUsageDeltaInTransaction
  split
  · rename_i hnothing
    rw [booksNothing_zero hnothing hm, add_zero]
  · have hself := session_update_self l sessionId (fun s => { s with metrics := s.metrics + amount })
    exact congrArg (fun s => SessionUsage.metrics s m) hself

theorem delta_rest : (recordUsageDeltaInTransaction l sessionId amount at_ dimensions).session sessionId =
    { l.session sessionId with
      metrics := ((recordUsageDeltaInTransaction l sessionId amount at_ dimensions).session sessionId).metrics } := by
  unfold recordUsageDeltaInTransaction
  split
  · rfl
  · have hself := session_update_self l sessionId (fun s => { s with metrics := s.metrics + amount })
    have hrow : ∀ h m, ({ l.update sessionId (fun s => { s with metrics := s.metrics + amount }) with
        hourly := h, models := m } : Ledgers).session sessionId = { l.session sessionId with
          metrics := (l.session sessionId).metrics + amount } := fun _ _ => hself
    rw [hrow]

theorem delta_other {j : String} (h : j ≠ sessionId) :
    (recordUsageDeltaInTransaction l sessionId amount at_ dimensions).session j = l.session j := by
  unfold recordUsageDeltaInTransaction
  split
  · rfl
  · exact session_update_of_ne l h _

theorem delta_remainder : ((recordUsageDeltaInTransaction l sessionId amount at_ dimensions).session sessionId).costRemainderPicousd
    = (l.session sessionId).costRemainderPicousd := by
  rw [delta_rest]

end Deltas

def modelTotal (l : Ledgers) (sessionId : String) : Metrics :=
  Tally.total (fun k m => if k.1 = sessionId then m.metrics else 0) l.models

def sessionTotal (l : Ledgers) : Metrics := Tally.total (fun _ s => s.metrics) l.sessions

def bucketTotal (rows : List ((ℕ × Dimensions) × Metrics)) : Metrics := Tally.total (fun _ m => m) rows

/-- **The ledgers agree.** -/
structure Agrees (l : Ledgers) : Prop where
  models : ∀ sessionId, modelTotal l sessionId = (l.session sessionId).metrics
  buckets : sessionTotal l = bucketTotal l.hourly + bucketTotal l.daily + l.pruned
  remainder : ∀ sessionId, -500000 ≤ (l.session sessionId).costRemainderPicousd ∧ (l.session sessionId).costRemainderPicousd ≤ 500000

theorem empty_agrees : Agrees .empty :=
  ⟨fun _ => rfl, rfl, fun _ => ⟨show (-500000 : ℤ) ≤ 0 by decide, show (0 : ℤ) ≤ 500000 by decide⟩⟩

theorem Agrees.update (h : Agrees l) {f : SessionUsage → SessionUsage}
    (hmetrics : (f (l.session sessionId)).metrics = (l.session sessionId).metrics)
    (hremainder : -500000 ≤ (f (l.session sessionId)).costRemainderPicousd ∧ (f (l.session sessionId)).costRemainderPicousd ≤ 500000) :
    Agrees (l.update sessionId f) := by
  refine ⟨fun j => ?_, ?_, fun j => ?_⟩
  · have hmodels : modelTotal (l.update sessionId f) j = modelTotal l j := rfl
    rw [hmodels, h.models]
    by_cases hj : j = sessionId
    · subst hj
      rw [session_update_self, hmetrics]
    · rw [session_update_of_ne l hj]
  · have htotal : sessionTotal (l.update sessionId f) = sessionTotal l := by
      have hchange := Tally.total_upsert (fun _ s => SessionUsage.metrics s) (d := SessionUsage.empty) (k := sessionId) rfl f l.sessions
      refine hchange.trans ?_
      have hsame : (f (Tally.get .empty sessionId l.sessions)).metrics = (Tally.get .empty sessionId l.sessions).metrics := hmetrics
      rw [hsame, sub_self, add_zero]
      rfl
    rw [htotal]
    exact h.buckets
  · by_cases hj : j = sessionId
    · subst hj
      rw [session_update_self]
      exact hremainder
    · rw [session_update_of_ne l hj]
      exact h.remainder j

/-- **A delta is booked to the session, the model and the hour alike.** -/
theorem Agrees.delta (h : Agrees l) (sessionId : String) (amount : Metrics) (occurredAt : ℤ) (dimensions : Dimensions) :
    Agrees (recordUsageDeltaInTransaction l sessionId amount occurredAt dimensions) := by
  refine ⟨fun j => ?_, ?_, fun j => ?_⟩
  · unfold recordUsageDeltaInTransaction
    split
    · exact h.models j
    · have hmodel := Tally.total_upsert (fun (k : String × Text) m => if k.1 = j then ModelUsage.metrics m else 0)
        (d := ⟨"", 0⟩) (k := (sessionId, dimensions.model)) (by simp) (fun m => ⟨dimensions.driver, m.metrics + amount⟩) l.models
      refine hmodel.trans ?_
      by_cases hj : j = sessionId
      · subst hj
        have hself := session_update_self l j (fun s => { s with metrics := s.metrics + amount })
        have hrow : (l.update j (fun s => { s with metrics := s.metrics + amount })).session j = { l.session j with
            metrics := (l.session j).metrics + amount } := hself
        have hgoal : ∀ hs ms, ({ l.update j (fun s => { s with metrics := s.metrics + amount }) with
            hourly := hs, models := ms } : Ledgers).session j = { l.session j with
              metrics := (l.session j).metrics + amount } := fun _ _ => hrow
        rw [hgoal, if_pos rfl, if_pos rfl, add_sub_cancel_left]
        have hold := h.models j
        unfold modelTotal at hold
        rw [hold]
      · have hother := session_update_of_ne l hj (fun s => { s with metrics := s.metrics + amount })
        have hgoal : ∀ hs ms, ({ l.update sessionId (fun s => { s with metrics := s.metrics + amount }) with
            hourly := hs, models := ms } : Ledgers).session j = l.session j := fun _ _ => hother
        rw [hgoal, if_neg (Ne.symm hj), if_neg (Ne.symm hj), sub_self, add_zero]
        exact h.models j
  · unfold recordUsageDeltaInTransaction
    split
    · exact h.buckets
    · have hsession := Tally.total_upsert (fun _ s => SessionUsage.metrics s) (d := SessionUsage.empty) (k := sessionId) rfl
        (fun s => { s with metrics := s.metrics + amount }) l.sessions
      rw [add_sub_cancel_left] at hsession
      have hhour := Tally.total_add (fun _ : ℕ × Dimensions => AddMonoidHom.id Metrics)
        (occurredAt.toNat / hourMs * hourMs, dimensions) amount l.hourly
      have hleft : sessionTotal { l.update sessionId (fun s => { s with metrics := s.metrics + amount }) with
          hourly := Tally.upsert 0 (occurredAt.toNat / hourMs * hourMs, dimensions) (· + amount) l.hourly
          models := Tally.upsert ⟨"", 0⟩ (sessionId, dimensions.model)
            (fun m => ⟨dimensions.driver, m.metrics + amount⟩) l.models } = sessionTotal l + amount := hsession
      have hright : bucketTotal (Tally.upsert 0 (occurredAt.toNat / hourMs * hourMs, dimensions) (· + amount) l.hourly)
          = bucketTotal l.hourly + amount := hhour
      rw [hleft, hright, h.buckets]
      have hrest : ∀ a b c d : Metrics, a + b + c + d = a + d + b + c := by
        intro a b c d
        abel
      exact hrest _ _ _ _
  · by_cases hj : j = sessionId
    · subst hj
      rw [delta_remainder]
      exact h.remainder j
    · rw [delta_other hj]
      exact h.remainder j

/-- **A roll-up moves amounts and loses none.** -/
theorem maintainOrganization_agrees (h : Agrees l) (now : ℤ) (policy : RetentionPolicy) :
    Agrees (maintainOrganization now l policy) := by
  refine ⟨h.models, ?_, h.remainder⟩
  have hsession : sessionTotal (maintainOrganization now l policy) = sessionTotal l := rfl
  rw [hsession, h.buckets]
  unfold maintainOrganization
  dsimp only
  generalize isBefore policy ((now - policy.hourlyDays * dayMs) / hourMs * hourMs) = isOldHour
  generalize isBefore policy ((now - policy.dailyDays * dayMs) / dayMs * dayMs) = isOldDay
  have hmoved : ∀ rows : List ((ℕ × Dimensions) × Metrics),
      bucketTotal (rows.map (fun r => ((r.1.1 / dayMs * dayMs, r.1.2), r.2))) = bucketTotal rows := by
    intro rows
    unfold bucketTotal Tally.total
    rw [List.map_map]
    rfl
  have hrolled := Tally.total_addAll (AddMonoidHom.id Metrics)
    ((l.hourly.filter isOldHour).map (fun r => ((r.1.1 / dayMs * dayMs, r.1.2), r.2))) []
  have hdaily := Tally.total_addAll (AddMonoidHom.id Metrics)
    (Tally.addAll ((l.hourly.filter isOldHour).map (fun r => ((r.1.1 / dayMs * dayMs, r.1.2), r.2))) []) l.daily
  generalize Tally.addAll ((l.hourly.filter isOldHour).map (fun r => ((r.1.1 / dayMs * dayMs, r.1.2), r.2))) [] = rolled
    at hrolled hdaily ⊢
  generalize Tally.addAll rolled l.daily = daily at hdaily ⊢
  have hrolled' : bucketTotal rolled = bucketTotal (l.hourly.filter isOldHour) := by
    rw [← hmoved (l.hourly.filter isOldHour)]
    refine Eq.trans hrolled ?_
    exact zero_add _
  have hdaily' : bucketTotal daily = bucketTotal l.daily + bucketTotal rolled := hdaily
  have hhours := Tally.total_split (fun _ m => m) isOldHour l.hourly
  have hdays := Tally.total_split (fun _ m => m) isOldDay daily
  have hhours' : bucketTotal l.hourly = bucketTotal (l.hourly.filter isOldHour) + bucketTotal (l.hourly.filter (fun r => !isOldHour r)) :=
    hhours
  have hdays' : bucketTotal daily = bucketTotal (daily.filter isOldDay) + bucketTotal (daily.filter (fun r => !isOldDay r)) := hdays
  have hpruned : Tally.total (fun _ m => m) (daily.filter isOldDay) = bucketTotal (daily.filter isOldDay) := rfl
  rw [hpruned]
  have hbalance : bucketTotal (l.hourly.filter isOldHour) + bucketTotal l.daily =
      bucketTotal (daily.filter isOldDay) + bucketTotal (daily.filter (fun r => !isOldDay r)) := by
    rw [← hdays', hdaily', hrolled', add_comm]
  rw [hhours']
  have hregroup : ∀ a b c d e f : Metrics, a + c = e + f → a + b + c + d = b + f + (d + e) := by
    intro a b c d e f hac
    have hrest : a + b + c + d = b + (a + c) + d := by abel
    rw [hrest, hac]
    abel
  exact hregroup _ _ _ _ _ _ hbalance

theorem maintainUsageAggregation_agrees (policies : List RetentionPolicy) (now : ℤ) :
    ∀ {l : Ledgers}, Agrees l → Agrees (maintainUsageAggregation l policies now) := by
  induction policies with
  | nil => exact fun h => h
  | cons policy policies ih => exact fun h => ih (maintainOrganization_agrees h now policy)

/-! ## Events -/

section Events

variable {rates : Pricing} {l : Ledgers} {sessionId : String} {e : UsageEvent} {u : TokenUsage} {occurredAt : ℤ} {dimensions : Dimensions}

def recordPico (rates : Pricing) (e : UsageEvent) (u : TokenUsage) (dimensions : Dimensions) : ℤ :=
  (usageCostParts (some (eventPrice rates e u (eventDimensions u dimensions)).costUsd)).pico

theorem bookRecord_other {j : String} (h : j ≠ sessionId) :
    (bookRecord rates l sessionId e u occurredAt dimensions).session j = l.session j := by
  unfold bookRecord
  dsimp only
  rw [session_update_of_ne _ h, delta_other h]

/-- **A record is booked at its amount.** -/
theorem bookRecord_cost : ((bookRecord rates l sessionId e u occurredAt dimensions).session sessionId).costPico =
    (l.session sessionId).costPico + recordPico rates e u dimensions := by
  unfold bookRecord
  dsimp only
  rw [session_update_self]
  unfold SessionUsage.costPico
  dsimp only
  rw [delta_session rfl]
  unfold recordPico CostParts.pico usageDelta
  dsimp only
  ring

theorem bookRecord_agrees (h : Agrees l) : Agrees (bookRecord rates l sessionId e u occurredAt dimensions) := by
  unfold bookRecord
  dsimp only
  refine (h.delta _ _ _ _).update rfl ?_
  dsimp only
  exact carryOf_bounds _

theorem checkCoverage_booked (s : SessionUsage) (source : UsageSource) :
    (checkCoverage s source).1.metrics = s.metrics ∧ (checkCoverage s source).1.costRemainderPicousd = s.costRemainderPicousd := by
  unfold checkCoverage
  split
  · exact ⟨rfl, rfl⟩
  · split
    · exact ⟨rfl, rfl⟩
    · split <;> exact ⟨rfl, rfl⟩

/-- The event contributes: it has no source, or one that its session does not cover. -/
def contributes (s : SessionUsage) (source : Option UsageSource) : Bool :=
  source.all (fun source => (checkCoverage s source).2)

def eventPico (rates : Pricing) (s : SessionUsage) (e : UsageEvent) (source : Option UsageSource) (dimensions : Dimensions) : ℤ :=
  match e.payload with
  | .tokenUsage u => if contributes s source && isAccrued u then recordPico rates e u dimensions else 0
  | .other => 0

def bookEvent (rates : Pricing) (l : Ledgers) (sessionId : String) (e : UsageEvent) (occurredAt : ℤ) (dimensions : Dimensions) : Ledgers :=
  match e.payload with
  | .tokenUsage u => if isAccrued u then bookRecord rates l sessionId e u occurredAt dimensions else l
  | .other => l

theorem recordUsageEvent_eq (source : Option UsageSource) :
    recordUsageEventInTransaction rates l sessionId e occurredAt source dimensions =
      match source with
      | none => bookEvent rates l sessionId e occurredAt dimensions
      | some source =>
        if (checkCoverage (l.session sessionId) source).2 then
          (bookEvent rates (l.update sessionId (fun _ => (checkCoverage (l.session sessionId) source).1)) sessionId e occurredAt
            dimensions).update sessionId (fun s => { s with coveredThroughSeq := source.runnerSeq })
        else l.update sessionId (fun _ => (checkCoverage (l.session sessionId) source).1) := rfl

theorem bookEvent_other {j : String} (h : j ≠ sessionId) :
    (bookEvent rates l sessionId e occurredAt dimensions).session j = l.session j := by
  unfold bookEvent
  split
  · split
    · exact bookRecord_other h
    · rfl
  · rfl

theorem bookEvent_agrees (h : Agrees l) : Agrees (bookEvent rates l sessionId e occurredAt dimensions) := by
  unfold bookEvent
  split
  · split
    · exact bookRecord_agrees h
    · exact h
  · exact h

theorem bookEvent_cost : ((bookEvent rates l sessionId e occurredAt dimensions).session sessionId).costPico =
    (l.session sessionId).costPico + eventPico rates (l.session sessionId) e none dimensions := by
  unfold bookEvent eventPico contributes
  cases e.payload with
  | other =>
    dsimp only
    rw [add_zero]
  | tokenUsage u =>
    dsimp only
    rw [Option.all_none, Bool.true_and]
    split
    · exact bookRecord_cost
    · rw [add_zero]

theorem costPico_congr {s t : SessionUsage} (hm : s.metrics = t.metrics) (hr : s.costRemainderPicousd = t.costRemainderPicousd) :
    s.costPico = t.costPico := by
  unfold SessionUsage.costPico
  rw [hm, hr]

theorem recordUsageEvent_other (source : Option UsageSource) {j : String} (h : j ≠ sessionId) :
    (recordUsageEventInTransaction rates l sessionId e occurredAt source dimensions).session j = l.session j := by
  rw [recordUsageEvent_eq]
  cases source with
  | none => exact bookEvent_other h
  | some source =>
    dsimp only
    split
    · rw [session_update_of_ne _ h, bookEvent_other h, session_update_of_ne _ h]
    · rw [session_update_of_ne _ h]

theorem recordUsageEvent_agrees (h : Agrees l) (source : Option UsageSource) :
    Agrees (recordUsageEventInTransaction rates l sessionId e occurredAt source dimensions) := by
  rw [recordUsageEvent_eq]
  cases source with
  | none => exact bookEvent_agrees h
  | some source =>
    dsimp only
    obtain ⟨hmetrics, hremainder⟩ := checkCoverage_booked (l.session sessionId) source
    have hchecked : Agrees (l.update sessionId (fun _ => (checkCoverage (l.session sessionId) source).1)) := by
      refine h.update hmetrics ?_
      rw [hremainder]
      exact h.remainder sessionId
    split
    · have hbooked : Agrees (bookEvent rates (l.update sessionId (fun _ => (checkCoverage (l.session sessionId) source).1)) sessionId e
          occurredAt dimensions) := bookEvent_agrees hchecked
      exact hbooked.update rfl (hbooked.remainder sessionId)
    · exact hchecked

/-- **An event books its amount.** -/
theorem recordUsageEvent_cost (source : Option UsageSource) :
    ((recordUsageEventInTransaction rates l sessionId e occurredAt source dimensions).session sessionId).costPico =
      (l.session sessionId).costPico + eventPico rates (l.session sessionId) e source dimensions := by
  rw [recordUsageEvent_eq]
  cases source with
  | none => exact bookEvent_cost
  | some source =>
    dsimp only
    obtain ⟨hmetrics, hremainder⟩ := checkCoverage_booked (l.session sessionId) source
    have hchecked : ((l.update sessionId (fun _ => (checkCoverage (l.session sessionId) source).1)).session sessionId).costPico =
        (l.session sessionId).costPico := by
      rw [session_update_self]
      exact costPico_congr hmetrics hremainder
    split
    · rename_i hgoes
      rw [session_update_self]
      refine (costPico_congr rfl rfl).trans (bookEvent_cost.trans ?_)
      rw [hchecked]
      unfold eventPico contributes
      cases e.payload with
      | other => rfl
      | tokenUsage u =>
        dsimp only
        rw [Option.all_none, Option.all_some, hgoes]
    · rename_i hstops
      rw [hchecked]
      unfold eventPico contributes
      cases e.payload with
      | other =>
        dsimp only
        rw [add_zero]
      | tokenUsage u =>
        dsimp only
        rw [Option.all_some, Bool.not_eq_true] at *
        rw [hstops, Bool.false_and, if_neg Bool.false_ne_true, add_zero]

end Events

/-! ## Snapshots -/

section Snapshots

variable {rates : Pricing} {sessionId : String} {now : ℤ} {dimensions : Dimensions}

/-- The cost while residuals are booked: the remainder is the one carried, else the session's. -/
def carriedPico (sessionId : String) (current : ℤ) (acc : Ledgers × Option ℤ) : ℤ :=
  (acc.1.session sessionId).metrics .costMicrousd * 1000000 + acc.2.getD current

structure Carried (l : Ledgers) (sessionId : String) (current : ℤ) (acc : Ledgers × Option ℤ) : Prop where
  agrees : Agrees acc.1
  other : ∀ j, j ≠ sessionId → acc.1.session j = l.session j
  remainder : (acc.1.session sessionId).costRemainderPicousd = current
  bounds : ∀ r, acc.2 = some r → -500000 ≤ r ∧ r ≤ 500000

theorem bookResidual_carried {l : Ledgers} {current : ℤ} {acc : Ledgers × Option ℤ} (h : Carried l sessionId current acc)
    (r : PricedResidual) : Carried l sessionId current (bookResidual sessionId now dimensions current acc r) := by
  refine ⟨h.agrees.delta _ _ _ _, fun j hj => ?_, ?_, fun x hx => ?_⟩
  · unfold bookResidual
    dsimp only
    rw [delta_other hj, h.other j hj]
  · unfold bookResidual
    dsimp only
    rw [delta_remainder, h.remainder]
  · unfold bookResidual at hx
    dsimp only at hx
    rw [← Option.some.inj hx]
    exact carryOf_bounds _

theorem bookResidual_cost {current : ℤ} (acc : Ledgers × Option ℤ) (r : PricedResidual) :
    carriedPico sessionId current (bookResidual sessionId now dimensions current acc r) =
      carriedPico sessionId current acc + r.cost.pico := by
  unfold carriedPico bookResidual
  dsimp only
  rw [delta_session rfl]
  unfold CostParts.pico usageDelta
  dsimp only
  rw [Option.getD_some]
  ring

theorem bookResiduals {l : Ledgers} {current : ℤ} (now : ℤ) (dimensions : Dimensions) (residuals : List PricedResidual) : ∀ acc : Ledgers × Option ℤ,
    Carried l sessionId current acc → Carried l sessionId current (residuals.foldl (bookResidual sessionId now dimensions current) acc) ∧
      carriedPico sessionId current (residuals.foldl (bookResidual sessionId now dimensions current) acc) =
        carriedPico sessionId current acc + (residuals.map (fun r => r.cost.pico)).sum := by
  induction residuals with
  | nil => exact fun acc h => ⟨h, (add_zero _).symm⟩
  | cons r residuals ih =>
    intro acc h
    obtain ⟨hcarried, hcost⟩ := ih _ (bookResidual_carried h r)
    refine ⟨hcarried, hcost.trans ?_⟩
    rw [bookResidual_cost, List.map_cons, List.sum_cons, add_assoc]

def SessionSnapshot.costPico (snapshot : SessionSnapshot) : ℤ := (usageCostParts snapshot.costUsd).pico

def residualPico (rates : Pricing) (s : SessionUsage) (snapshot : SessionSnapshot) (dimensions : Dimensions) : ℤ :=
  ((reconciliation rates s snapshot dimensions).residuals.map (fun r => r.cost.pico)).sum

/-- The price of the tokens no entry explains, booked where the snapshot's cost did not grow. -/
def flatPico (rates : Pricing) (s : SessionUsage) (snapshot : SessionSnapshot) (dimensions : Dimensions) : ℤ :=
  let r := reconciliation rates s snapshot dimensions
  if !r.providerCostGrew && r.residualTokens then (usageCostParts (some (flatPrice rates r dimensions).costUsd)).pico else 0

/-- The growth that already prices a residual. -/
def absorbedPico (rates : Pricing) (s : SessionUsage) (snapshot : SessionSnapshot) (dimensions : Dimensions) : ℤ :=
  (reconciliation rates s snapshot dimensions).absorbedPico

variable {s : SessionUsage} {snapshot : SessionSnapshot}

theorem snapshot_costPico (rates : Pricing) (s : SessionUsage) (snapshot : SessionSnapshot) (dimensions : Dimensions) : snapshot.costPico = (reconciliation rates s snapshot dimensions).targetMicrousd * 1000000 +
    (reconciliation rates s snapshot dimensions).snapshotRemainder := by
  unfold SessionSnapshot.costPico CostParts.pico reconciliation
  dsimp only
  ring

theorem grew_iff (rates : Pricing) (s : SessionUsage) (snapshot : SessionSnapshot) (dimensions : Dimensions) : (reconciliation rates s snapshot dimensions).providerCostGrew = true ↔
    s.metrics .costMicrousd < (reconciliation rates s snapshot dimensions).targetMicrousd ∨
      ((reconciliation rates s snapshot dimensions).targetMicrousd = s.metrics .costMicrousd ∧
        s.costRemainderPicousd < (reconciliation rates s snapshot dimensions).snapshotRemainder) :=
  decide_eq_true_iff

theorem adopts_iff (rates : Pricing) (s : SessionUsage) (snapshot : SessionSnapshot) (dimensions : Dimensions) : (reconciliation rates s snapshot dimensions).adoptsSnapshotCost = true ↔
    s.metrics .costMicrousd < (reconciliation rates s snapshot dimensions).targetMicrousd ∨
      ((reconciliation rates s snapshot dimensions).targetMicrousd = s.metrics .costMicrousd ∧
        s.costRemainderPicousd ≤ (reconciliation rates s snapshot dimensions).snapshotRemainder) :=
  decide_eq_true_iff

theorem absorbed_grew (h : 0 < (reconciliation rates s snapshot dimensions).absorbedPico) :
    (reconciliation rates s snapshot dimensions).providerCostGrew = true := by
  by_contra hgrew
  have hnone : (reconciliation rates s snapshot dimensions).absorbedPico = 0 := by
    unfold reconciliation at hgrew ⊢
    dsimp only at hgrew ⊢
    rw [if_neg (fun hboth => hgrew hboth.1)]
  omega

theorem absorbed_nonneg (rates : Pricing) (s : SessionUsage) (snapshot : SessionSnapshot) (dimensions : Dimensions) :
    0 ≤ (reconciliation rates s snapshot dimensions).absorbedPico := by
  unfold reconciliation
  dsimp only
  split
  · rename_i hboth
    exact hboth.2.le
  · exact le_refl 0

/-- **The flat part of a snapshot** lifts the cost to the larger of ledger and snapshot. -/
theorem flatCost_spec (rates : Pricing) (snapshot : SessionSnapshot) (dimensions : Dimensions) (hs : -500000 ≤ s.costRemainderPicousd ∧ s.costRemainderPicousd ≤ 500000) :
    (s.metrics .costMicrousd + (flatCost rates s (reconciliation rates s snapshot dimensions) snapshot dimensions).1) * 1000000 +
        (flatCost rates s (reconciliation rates s snapshot dimensions) snapshot dimensions).2.2.getD s.costRemainderPicousd =
      max s.costPico snapshot.costPico + flatPico rates s snapshot dimensions - absorbedPico rates s snapshot dimensions ∧
    ∀ r, (flatCost rates s (reconciliation rates s snapshot dimensions) snapshot dimensions).2.2 = some r →
      -500000 ≤ r ∧ r ≤ 500000 := by
  have hsnapshot := snapshot_costPico rates s snapshot dimensions
  have hgrew := grew_iff rates s snapshot dimensions
  have hadopts := adopts_iff rates s snapshot dimensions
  have habsorbed : 0 < (reconciliation rates s snapshot dimensions).absorbedPico →
      (reconciliation rates s snapshot dimensions).providerCostGrew = true := absorbed_grew
  have hnonneg := absorbed_nonneg rates s snapshot dimensions
  have hbounds : -500000 ≤ (reconciliation rates s snapshot dimensions).snapshotRemainder ∧
      (reconciliation rates s snapshot dimensions).snapshotRemainder ≤ 500000 := usageCostParts_remainder snapshot.costUsd
  unfold flatPico absorbedPico SessionUsage.costPico
  dsimp only
  generalize reconciliation rates s snapshot dimensions = r at *
  unfold flatCost
  split
  · rename_i hpos
    have hg := habsorbed hpos
    have hcarry := carryOf_bounds (r.snapshotRemainder - (r.absorbedPico - (r.absorbedPico + 500000) / 1000000 * 1000000))
    rw [hg, Bool.not_true, Bool.false_and, if_neg Bool.false_ne_true]
    rw [hg, eq_self_iff_true, true_iff] at hgrew
    dsimp only
    rw [Option.getD_some]
    refine ⟨?_, fun x hx => ?_⟩
    · omega
    · cases hx
      exact hcarry
  · rename_i hpos
    split
    · rename_i hg
      rw [hg, eq_self_iff_true, true_iff] at hgrew
      have ha : r.adoptsSnapshotCost = true := by
        rw [hadopts]
        omega
      rw [hg, ha, Bool.not_true, Bool.false_and, if_neg Bool.false_ne_true, if_pos rfl]
      dsimp only
      rw [Option.getD_some]
      refine ⟨by omega, fun x hx => ?_⟩
      cases hx
      exact hbounds
    · rename_i hg
      have hng : ¬ (s.metrics .costMicrousd < r.targetMicrousd ∨
          (r.targetMicrousd = s.metrics .costMicrousd ∧ s.costRemainderPicousd < r.snapshotRemainder)) :=
        fun hor => hg (hgrew.2 hor)
      rw [Bool.not_eq_true] at hg
      rw [hg, Bool.not_false, Bool.true_and]
      split
      · have hcarry := carryOf_bounds (s.costRemainderPicousd + (usageCostParts (some (flatPrice rates r dimensions).costUsd)).remainderPicousd)
        unfold CostParts.pico
        dsimp only
        rw [Option.getD_some]
        refine ⟨by omega, fun x hx => ?_⟩
        cases hx
        exact hcarry
      · dsimp only
        split
        · rename_i ha
          rw [hadopts] at ha
          rw [Option.getD_some]
          refine ⟨by omega, fun x hx => ?_⟩
          cases hx
          exact hbounds
        · rw [Option.getD_none]
          refine ⟨by omega, fun x hx => ?_⟩
          cases hx

def coversNothing (negotiates : Bool) (snapshot : SessionSnapshot) : Bool :=
  snapshot.historyEpoch == none && snapshot.seq == 0 && negotiates

theorem goes_of_covers {negotiates : Bool} (hcovers : coversNothing negotiates snapshot = false) :
    ¬(snapshot.historyEpoch = none ∧ snapshot.seq = 0 ∧ negotiates = true) := by
  rintro ⟨hepoch, hseq, rfl⟩
  unfold coversNothing at hcovers
  rw [hepoch, hseq] at hcovers
  cases hcovers

/-- **A snapshot's cost growth is booked once**: the larger of ledger and snapshot, the residuals and the unexplained
tokens, less what is absorbed. -/
theorem reconcile_spec {l : Ledgers} (h : Agrees l) {negotiates : Bool} (hcovers : coversNothing negotiates snapshot = false) :
    Agrees (reconcileUsageSnapshotInTransaction rates negotiates l sessionId snapshot now dimensions) ∧
    (∀ j, j ≠ sessionId → (reconcileUsageSnapshotInTransaction rates negotiates l sessionId snapshot now dimensions).session j = l.session j) ∧
    ((reconcileUsageSnapshotInTransaction rates negotiates l sessionId snapshot now dimensions).session sessionId).costPico =
      max (l.session sessionId).costPico snapshot.costPico + residualPico rates (l.session sessionId) snapshot dimensions +
        flatPico rates (l.session sessionId) snapshot dimensions - absorbedPico rates (l.session sessionId) snapshot dimensions := by
  obtain ⟨hflat, hflatBounds⟩ := flatCost_spec rates snapshot dimensions (h.remainder sessionId)
  unfold reconcileUsageSnapshotInTransaction
  rw [if_neg (goes_of_covers hcovers)]
  unfold residualPico
  dsimp only
  generalize hs : l.session sessionId = s at *
  generalize reconciliation rates s snapshot dimensions = r at *
  generalize hf : flatCost rates s r snapshot dimensions = flat at *
  -- the counts' flag, the flat delta, the residuals and the row, in the order of the code
  have hflag : Agrees (l.update sessionId (fun s => { s with
      counts := if invalidatesCounts s r snapshot then { s.counts with complete := false } else s.counts })) :=
    h.update rfl (h.remainder sessionId)
  have hflagSession := session_update_self l sessionId (fun s => { s with
      counts := if invalidatesCounts s r snapshot then { s.counts with complete := false } else s.counts })
  have hflagOther : ∀ j, j ≠ sessionId → (l.update sessionId (fun s => { s with
      counts := if invalidatesCounts s r snapshot then { s.counts with complete := false } else s.counts })).session j = l.session j :=
    fun j hj => session_update_of_ne l hj _
  generalize l.update sessionId (fun s => { s with
      counts := if invalidatesCounts s r snapshot then { s.counts with complete := false } else s.counts }) = flagged at *
  have hbooked : Carried l sessionId s.costRemainderPicousd (recordUsageDeltaInTransaction flagged sessionId
      (usageDelta r.inputTokens flat.1 ⟨r.inputTokens, 0, 0, r.outputTokens⟩ 0 0 flat.2.1) now dimensions, flat.2.2) := by
    refine ⟨hflag.delta _ _ _ _, fun j hj => ?_, ?_, hflatBounds⟩
    · dsimp only
      rw [delta_other hj, hflagOther j hj]
    · dsimp only
      rw [delta_remainder, hflagSession, hs]
  obtain ⟨hcarried, hcost⟩ := bookResiduals now dimensions r.residuals _ hbooked
  generalize r.residuals.foldl (bookResidual sessionId now dimensions s.costRemainderPicousd) _ = booked at hcarried hcost ⊢
  refine ⟨hcarried.agrees.update rfl ?_, fun j hj => ?_, ?_⟩
  · dsimp only
    cases hrem : booked.2 with
    | none => exact hcarried.agrees.remainder sessionId
    | some x => exact hcarried.bounds x hrem
  · rw [session_update_of_ne _ hj, hcarried.other j hj]
  · rw [session_update_self]
    have hlast : (SessionUsage.costPico
        { booked.1.session sessionId with
          costRemainderPicousd := booked.2.getD (booked.1.session sessionId).costRemainderPicousd }) =
        carriedPico sessionId s.costRemainderPicousd booked := by
      unfold SessionUsage.costPico carriedPico
      rw [hcarried.remainder]
    refine (costPico_congr rfl rfl).trans (hlast.trans ?_)
    rw [hcost]
    unfold carriedPico
    dsimp only
    rw [delta_session rfl, hflagSession, hs]
    have hcostDelta : usageDelta r.inputTokens flat.1 ⟨r.inputTokens, 0, 0, r.outputTokens⟩ 0 0 flat.2.1 .costMicrousd = flat.1 := rfl
    rw [hcostDelta, hflat]
    ring

end Snapshots

/-- An event, a snapshot or a run of the maintenance, each with what the database holds about its session. -/
inductive UsageOp
  | event (sessionId : String) (e : UsageEvent) (occurredAt : ℤ) (source : Option UsageSource) (dimensions : Dimensions)
  | snapshot (sessionId : String) (snapshot : SessionSnapshot) (now : ℤ) (negotiates : Bool) (dimensions : Dimensions)
  | maintain (policies : List RetentionPolicy) (now : ℤ)

def Ledgers.apply (rates : Pricing) (l : Ledgers) : UsageOp → Ledgers
  | .event sessionId e occurredAt source dimensions => recordUsageEventInTransaction rates l sessionId e occurredAt source dimensions
  | .snapshot sessionId snapshot now negotiates dimensions =>
    reconcileUsageSnapshotInTransaction rates negotiates l sessionId snapshot now dimensions
  | .maintain policies now => maintainUsageAggregation l policies now

def reconciledPico (rates : Pricing) (negotiates : Bool) (s : SessionUsage) (snapshot : SessionSnapshot) (dimensions : Dimensions) : ℤ :=
  if coversNothing negotiates snapshot then s.costPico
  else max s.costPico snapshot.costPico + residualPico rates s snapshot dimensions + flatPico rates s snapshot dimensions -
    absorbedPico rates s snapshot dimensions

def opPico (rates : Pricing) (l : Ledgers) (j : String) : UsageOp → ℤ
  | .event sessionId e _ source dimensions =>
    if j = sessionId then eventPico rates (l.session j) e source dimensions else 0
  | .snapshot sessionId snapshot _ negotiates dimensions =>
    if j = sessionId then reconciledPico rates negotiates (l.session j) snapshot dimensions - (l.session j).costPico else 0
  | .maintain _ _ => 0

def bookedPico (rates : Pricing) (j : String) : Ledgers → List UsageOp → ℤ
  | _, [] => 0
  | l, op :: ops => opPico rates l j op + bookedPico rates j (l.apply rates op) ops

theorem reconcile_covers_nothing {snapshot : SessionSnapshot}
    {now : ℤ} {dimensions : Dimensions} (h : coversNothing negotiates snapshot = true) :
    reconcileUsageSnapshotInTransaction rates negotiates l sessionId snapshot now dimensions = l := by
  unfold coversNothing at h
  simp only [Bool.and_eq_true, beq_iff_eq] at h
  unfold reconcileUsageSnapshotInTransaction
  rw [if_pos ⟨h.1.1, h.1.2, h.2⟩]

theorem reconcile_cost (h : Agrees l) (sessionId : String) (snapshot : SessionSnapshot) (now : ℤ) (dimensions : Dimensions) :
    ((reconcileUsageSnapshotInTransaction rates negotiates l sessionId snapshot now dimensions).session sessionId).costPico =
      reconciledPico rates negotiates (l.session sessionId) snapshot dimensions := by
  unfold reconciledPico
  cases hcovers : coversNothing negotiates snapshot with
  | true =>
    rw [reconcile_covers_nothing hcovers]
    rfl
  | false => exact (reconcile_spec h hcovers).2.2

theorem apply_agrees (h : Agrees l) (op : UsageOp) : Agrees (l.apply rates op) := by
  cases op with
  | event sessionId e occurredAt source dimensions => exact recordUsageEvent_agrees h source
  | snapshot sessionId snapshot now negotiates dimensions =>
    unfold Ledgers.apply
    dsimp only
    cases hcovers : coversNothing negotiates snapshot with
    | true =>
      rw [reconcile_covers_nothing hcovers]
      exact h
    | false => exact (reconcile_spec h hcovers).1
  | maintain policies now => exact maintainUsageAggregation_agrees policies now h

theorem maintain_session (policies : List RetentionPolicy) (now : ℤ) (j : String) : ∀ l : Ledgers,
    (maintainUsageAggregation l policies now).session j = l.session j := by
  induction policies with
  | nil => exact fun l => rfl
  | cons policy policies ih => exact fun l => ih (maintainOrganization now l policy)

/-- **One operation books its amount.** -/
theorem apply_cost (h : Agrees l) (op : UsageOp) (j : String) :
    ((l.apply rates op).session j).costPico = (l.session j).costPico + opPico rates l j op := by
  cases op with
  | event sessionId e occurredAt source dimensions =>
    dsimp only [opPico, Ledgers.apply]
    by_cases hj : j = sessionId
    · subst hj
      rw [if_pos rfl]
      exact recordUsageEvent_cost source
    · rw [if_neg hj, add_zero]
      rw [recordUsageEvent_other source hj]
  | snapshot sessionId snapshot now negotiates dimensions =>
    dsimp only [opPico, Ledgers.apply]
    by_cases hj : j = sessionId
    · subst hj
      rw [if_pos rfl, add_sub_cancel]
      exact reconcile_cost h j snapshot now dimensions
    · rw [if_neg hj, add_zero]
      cases hcovers : coversNothing negotiates snapshot with
      | true => rw [reconcile_covers_nothing hcovers]
      | false => rw [(reconcile_spec h hcovers).2.1 j hj]
  | maintain policies now =>
    dsimp only [opPico, Ledgers.apply]
    rw [maintain_session, add_zero]

theorem run_agrees (rates : Pricing) (ops : List UsageOp) : ∀ l : Ledgers, Agrees l → Agrees (ops.foldl (Ledgers.apply rates) l) ∧
    ∀ j, ((ops.foldl (Ledgers.apply rates) l).session j).costPico = (l.session j).costPico + bookedPico rates j l ops := by
  induction ops with
  | nil => exact fun l h => ⟨h, fun j => (add_zero _).symm⟩
  | cons op ops ih =>
    intro l h
    obtain ⟨hagrees, hcost⟩ := ih _ (apply_agrees h op)
    refine ⟨hagrees, fun j => (hcost j).trans ?_⟩
    rw [apply_cost h op j, bookedPico, add_assoc]

end Wollipog.Usage

import Wollipog.Usage.Covered
/-!
# Told — a session books its log once

A runner's log reaches the control plane as events, in order and some of them again, and as snapshots of its prefixes.
-/
namespace Wollipog.Usage

open Json (Text)

/-! ## Logs -/

def tokensThrough (side : Side) (log : List UsageEvent) (n : ℕ) : ℕ := ((log.take n).map (accruedTokens side)).sum

def recordsThrough (log : List UsageEvent) (n : ℕ) : List RatePricedUsageTotal := records ((log.take n).map UsageEvent.payload)

def ShowsTokens (log : List UsageEvent) : Prop :=
  ∀ r ∈ recordsThrough log log.length, 0 < r.count Side.input.bucket ∨ 0 < r.count Side.output.bucket

structure Truthful (log : List UsageEvent) (epoch : Option ℕ) (snapshot : SessionSnapshot) : Prop where
  epoch : snapshot.historyEpoch = epoch
  seq : snapshot.seq ≤ log.length
  total : ∀ side : Side, side.total snapshot = tokensThrough side log snapshot.seq
  entries : ∀ v, snapshot.ratePricedUsage = some v → accrued ((log.take snapshot.seq).map UsageEvent.payload) = some v

theorem ratePriced_tokens {e : UsageEvent} {r : RatePricedUsageTotal} (h : ratePricedUsageRecord e.payload = some r) (side : Side) :
    r.count side.bucket = accruedTokens side e := by
  unfold accruedTokens
  cases hp : e.payload with
  | other =>
    rw [hp] at h
    cases h
  | tokenUsage u =>
    rw [hp] at h
    obtain ⟨haccrued, hcount⟩ := accrued_of_ratePriced h
    dsimp only
    rw [if_pos haccrued, hcount, side.counts_bucket]

theorem records_cons (e : UsageEvent) (es : List UsageEvent) : records ((e :: es).map UsageEvent.payload) =
    (ratePricedUsageRecord e.payload).toList ++ records (es.map UsageEvent.payload) := by
  unfold records
  rw [List.map_cons, List.filterMap_cons]
  cases ratePricedUsageRecord e.payload <;> rfl

theorem records_tokens_le (side : Side) (es : List UsageEvent) :
    ((records (es.map UsageEvent.payload)).map (fun r => r.count side.bucket)).sum ≤ (es.map (accruedTokens side)).sum := by
  induction es with
  | nil => exact Nat.zero_le _
  | cons e es ih =>
    rw [records_cons, List.map_append, List.sum_append, List.map_cons, List.sum_cons]
    cases hr : ratePricedUsageRecord e.payload with
    | none => exact (Nat.add_le_add (Nat.zero_le _) ih)
    | some r =>
      have hone : ((some r).toList.map (fun r => r.count side.bucket)).sum = accruedTokens side e := by
        rw [Option.toList_some, List.map_cons, List.map_nil, List.sum_cons, List.sum_nil, Nat.add_zero, ratePriced_tokens hr]
      rw [hone]
      exact Nat.add_le_add_left ih _

section Logs

variable {log : List UsageEvent} {m n : ℕ}

theorem through_split (log : List UsageEvent) (h : m ≤ n) : ∃ rest : List UsageEvent,
    (∀ side, tokensThrough side log n = tokensThrough side log m + (rest.map (accruedTokens side)).sum) ∧
    recordsThrough log n = recordsThrough log m ++ records (rest.map UsageEvent.payload) := by
  obtain ⟨d, rfl⟩ := Nat.exists_eq_add_of_le h
  refine ⟨(log.drop m).take d, fun side => ?_, ?_⟩
  · unfold tokensThrough
    rw [List.take_add, List.map_append, List.sum_append]
  · unfold recordsThrough records
    rw [List.take_add, List.map_append, List.filterMap_append]

theorem tokensThrough_mono (side : Side) (log : List UsageEvent) (h : m ≤ n) : tokensThrough side log m ≤ tokensThrough side log n := by
  obtain ⟨rest, htokens, -⟩ := through_split log h
  rw [htokens]
  exact Nat.le_add_right _ _

theorem amount_mono (log : List UsageEvent) (h : m ≤ n) (k : Text) (bucket : RatePricedUsageBucket) :
    amount k bucket (recordsThrough log m) ≤ amount k bucket (recordsThrough log n) := by
  obtain ⟨rest, -, hrecords⟩ := through_split log h
  rw [hrecords]
  exact (Nat.le_add_right _ _).trans (Grouped.amount_append _ k _ _).ge

theorem amount_le_tokensThrough (side : Side) (log : List UsageEvent) (n : ℕ) (k : Text) :
    amount k side.bucket (recordsThrough log n) ≤ tokensThrough side log n :=
  (Grouped.amount_le_total _ k _).trans (records_tokens_le side (log.take n))

/-- **What the keys gained between two prefixes** is within what the log gained. -/
theorem gained_le (side : Side) (log : List UsageEvent) (m n : ℕ) {ks : List Text} (hn : ks.Nodup) :
    (ks.map (fun k => amount k side.bucket (recordsThrough log n) - amount k side.bucket (recordsThrough log m))).sum ≤
      tokensThrough side log n - tokensThrough side log m := by
  by_cases hmn : m ≤ n
  · obtain ⟨rest, htokens, hrecords⟩ := through_split log hmn
    have hgain : ∀ k, amount k side.bucket (recordsThrough log n) - amount k side.bucket (recordsThrough log m) =
        amount k side.bucket (records (rest.map UsageEvent.payload)) := by
      intro k
      rw [hrecords]
      have hadd : amount k side.bucket (recordsThrough log m ++ records (rest.map UsageEvent.payload)) =
          amount k side.bucket (recordsThrough log m) + amount k side.bucket (records (rest.map UsageEvent.payload)) :=
        Grouped.amount_append _ k _ _
      rw [hadd, Nat.add_sub_cancel_left]
    rw [List.map_congr_left (fun k _ => hgain k), htokens, Nat.add_sub_cancel_left]
    exact (Grouped.sum_amount_le_total _ hn _).trans (records_tokens_le side rest)
  · have hzero : (ks.map (fun k => amount k side.bucket (recordsThrough log n) - amount k side.bucket (recordsThrough log m))).sum = 0 := by
      refine List.sum_eq_zero (fun x hx => ?_)
      obtain ⟨k, -, rfl⟩ := List.mem_map.1 hx
      exact Nat.sub_eq_zero_of_le (amount_mono log (Nat.le_of_not_le hmn) k _)
    rw [hzero]
    exact Nat.zero_le _

theorem amount_eq_of_tokens (side : Side) {log : List UsageEvent} (h : m ≤ n) (htokens : tokensThrough side log n ≤ tokensThrough side log m)
    (k : Text) : amount k side.bucket (recordsThrough log n) = amount k side.bucket (recordsThrough log m) := by
  have hgained := gained_le side log m n (List.nodup_singleton k)
  have hmono := amount_mono log h k side.bucket
  rw [List.map_cons, List.map_nil, List.sum_cons, List.sum_nil] at hgained
  omega

end Logs

/-- **The entries that the runner accrued**: one for each key, its buckets the capped sums. -/
theorem accrued_entries {payloads : List SessionEventPayload} {v : List RatePricedUsageTotal} (h : accrued payloads = some v) :
    (v.map ratePricedUsageKey).Nodup ∧ (∀ k, k ∈ v.map ratePricedUsageKey ↔ k ∈ (records payloads).map ratePricedUsageKey) ∧
      ∀ e ∈ v, ∀ bucket, e.count bucket = min (amount (ratePricedUsageKey e) bucket (records payloads)) maxTokens := by
  have hkeys : Grouped.keyCount ratePricedUsageKey (records payloads) ≤ ratePricedUsageMaxEntries := by
    refine Nat.le_of_not_lt (fun hlt => ?_)
    rw [accrued_eq, (Grouped.addAll_spec ratePricedUsageMaxEntries joins (records payloads)).1.2 hlt] at h
    cases h
  obtain ⟨totals, ht, hnodup, hmem, -, hcount⟩ := accrued_spec hkeys
  rw [ht] at h
  cases h
  refine ⟨hnodup, hmem, fun e he bucket => ?_⟩
  rw [← hcount]
  unfold countOf
  cases hfind : Grouped.find ratePricedUsageKey (ratePricedUsageKey e) v with
  | none =>
    have hsome := (Grouped.find_isSome_iff (ratePricedUsageKey e) v).2 (List.mem_map_of_mem he)
    rw [hfind] at hsome
    cases hsome
  | some e' =>
    obtain rfl : e' = e := List.inj_on_of_nodup_map hnodup (List.mem_of_find?_eq_some hfind) he (Grouped.find_key hfind)
    rfl

variable {c : Ingested} {es : List RatePricedUsageTotal} {value : Option (List RatePricedUsageTotal)}

/-- **An event's effect on the counts.** -/
theorem countEvent_spec (e : UsageEvent) (hsize : c.rows.size ≤ ratePricedUsageMaxEntries * 2) :
    (countEvent c e).rows.size ≤ ratePricedUsageMaxEntries * 2 ∧
    ((countEvent c e).complete = true → c.complete = true ∧ ∀ k bucket,
      (countEvent c e).seen k bucket = c.seen k bucket + amount k bucket (records [e.payload])) ∧
    (∀ k bucket, c.seen k bucket ≤ (countEvent c e).seen k bucket) ∧
    ∀ k, k ∈ c.rows.keys → k ∈ (countEvent c e).rows.keys := by
  unfold countEvent records
  rw [List.filterMap_cons]
  cases hr : ratePricedUsageRecord e.payload with
  | none => exact ⟨hsize, fun hc => ⟨hc, fun k bucket => rfl⟩, fun k bucket => Nat.le_refl (c.seen k bucket), fun k hk => hk⟩
  | some r =>
    dsimp only [Option.elim_some]
    unfold countRatePricedUsageInTransaction
    split
    · exact ⟨hsize, fun hc => (by cases hc), fun k bucket => Nat.le_refl (c.seen k bucket), fun k hk => hk⟩
    · rename_i hroom
      have hseen : ∀ k bucket, ({ c with rows := c.rows.set (ratePricedUsageKey r) (fun bucket =>
          c.seen (ratePricedUsageKey r) bucket + r.count bucket) } : Ingested).seen k bucket =
            c.seen k bucket + amount k bucket [r] := by
        intro k bucket
        have hone : amount k bucket [r] = (if ratePricedUsageKey r = k then r.count bucket else 0) + 0 := Grouped.amount_cons _ k r []
        unfold Ingested.seen
        dsimp only
        rw [OrdMap.get_set, hone]
        by_cases hk : k = ratePricedUsageKey r
        · subst hk
          rw [if_pos rfl, if_pos rfl]
          rfl
        · rw [if_neg hk, if_neg (Ne.symm hk)]
          rfl
      refine ⟨?_, fun hc => ⟨hc, hseen⟩, fun k bucket => ?_, fun k hk => OrdMap.mem_keys_set.2 (.inr hk)⟩
      · dsimp only
        rw [OrdMap.size_set]
        cases hget : c.rows.get (ratePricedUsageKey r) with
        | none =>
          rw [if_neg (by simp)]
          rw [hget] at hroom
          simp only [Option.isNone_none, true_and] at hroom
          omega
        | some v =>
          rw [if_pos (by simp)]
          exact hsize
      · rw [hseen]
        exact Nat.le_add_right _ _

/-- **Accounting entries raises each of their keys to its entry.** -/
theorem accountEntries_spec (hn : (es.map ratePricedUsageKey).Nodup) :
    (∀ e ∈ es, ratePricedUsageKey e ∈ (accountEntries c es).rows.keys ∧ ∀ bucket,
      (accountEntries c es).seen (ratePricedUsageKey e) bucket = max (c.seen (ratePricedUsageKey e) bucket) (e.count bucket)) ∧
    (∀ k, k ∉ es.map ratePricedUsageKey → (accountEntries c es).seen k = c.seen k) ∧
    (∀ k, k ∈ c.rows.keys → k ∈ (accountEntries c es).rows.keys) ∧
    (accountEntries c es).rows.size = c.rows.size + (es.filter (fun e => (c.rows.get (ratePricedUsageKey e)).isNone)).length := by
  have hrows : (accountEntries c es).rows = c.rows.setAll ratePricedUsageKey
      (fun e bucket => max (c.seen (ratePricedUsageKey e) bucket) (e.count bucket)) es := rfl
  refine ⟨fun e he => ?_, fun k hk => ?_, fun k hk => ?_, ?_⟩
  · have hget := OrdMap.get_setAll_of_mem (fun e bucket => max (c.seen (ratePricedUsageKey e) bucket) (e.count bucket)) hn c.rows e he
    rw [← hrows] at hget
    refine ⟨OrdMap.mem_keys_iff.2 ⟨_, hget⟩, fun bucket => ?_⟩
    unfold Ingested.seen at hget ⊢
    rw [hget]
    rfl
  · have hget := OrdMap.get_setAll_of_not_mem
      (fun e bucket => max (c.seen (ratePricedUsageKey e) bucket) (e.count bucket)) es c.rows hk
    rw [← hrows] at hget
    unfold Ingested.seen
    rw [hget]
  · by_cases hmem : k ∈ es.map ratePricedUsageKey
    · obtain ⟨e, he, rfl⟩ := List.mem_map.1 hmem
      rw [OrdMap.mem_keys_iff, hrows]
      exact ⟨_, OrdMap.get_setAll_of_mem _ hn c.rows e he⟩
    · rw [OrdMap.mem_keys_iff, hrows, OrdMap.get_setAll_of_not_mem _ es c.rows hmem]
      exact OrdMap.mem_keys_iff.1 hk
  · rw [hrows]
    exact OrdMap.size_setAll _ hn c.rows

theorem parse_eq {value : List RatePricedUsageTotal} (h : parseRatePricedUsage value = some es) :
    es = value ∧ (es.map ratePricedUsageKey).Nodup := by
  unfold parseRatePricedUsage at h
  split at h
  · rename_i hvalid
    cases h
    exact ⟨rfl, hvalid.2.2⟩
  · cases h

theorem usableEntries_spec
    (h : usableEntries c value = some es) : c.complete = true ∧ value = some es ∧ (es.map ratePricedUsageKey).Nodup ∧
      c.rows.size + (es.filter (fun e => (c.rows.get (ratePricedUsageKey e)).isNone)).length ≤ ratePricedUsageMaxEntries * 2 ∧
      ratePricedResiduals es c = some ((es.map (fun e => (e, missing c e))).filter (fun r => carriesTokens r.2)) := by
  unfold usableEntries at h
  split at h
  · rename_i hcomplete
    obtain ⟨hparse, hsome⟩ := Option.filter_eq_some_iff.1 h
    obtain ⟨v, hv, hes⟩ := Option.bind_eq_some_iff.1 hparse
    obtain ⟨rfl, hnodup⟩ := parse_eq hes
    refine ⟨hcomplete, hv, hnodup, ?_⟩
    unfold ratePricedResiduals at hsome ⊢
    split
    · rename_i hmany
      rw [if_pos hmany] at hsome
      cases hsome
    · rename_i hfew
      exact ⟨Nat.le_of_not_lt hfew, rfl⟩
  · cases h

theorem usableEntries_parse (h : usableEntries c value = some es) : parseRatePricedUsage es = some es := by
  unfold usableEntries at h
  split at h
  · obtain ⟨hparse, -⟩ := Option.filter_eq_some_iff.1 h
    obtain ⟨v, -, hes⟩ := Option.bind_eq_some_iff.1 hparse
    obtain ⟨rfl, -⟩ := parse_eq hes
    exact hes
  · cases h

/-! ## What is booked -/

/-- **The row books the prefix of the log that it covers.** -/
structure Books (log : List UsageEvent) (epoch : Option ℕ) (s : SessionUsage) : Prop where
  epoch : s.runnerHistoryEpoch = epoch ∨ (s.runnerHistoryEpoch = none ∧ s.coveredThroughSeq = 0)
  covered : s.coveredThroughSeq ≤ log.length
  tokens : ∀ side : Side, s.metrics side.metric = tokensThrough side log s.coveredThroughSeq
  seen : s.counts.complete = true → ∀ (k : Text) (side : Side),
    s.counts.seen k side.bucket = amount k side.bucket (recordsThrough log s.coveredThroughSeq)
  all : ShowsTokens log → s.counts.complete = true → ∀ (k : Text) (bucket : RatePricedUsageBucket),
    min (amount k bucket (recordsThrough log s.coveredThroughSeq)) maxTokens ≤ s.counts.seen k bucket
  size : s.counts.rows.size ≤ ratePricedUsageMaxEntries * 2

theorem books_empty (log : List UsageEvent) (epoch : Option ℕ) : Books log epoch .empty where
  epoch := .inr ⟨rfl, rfl⟩
  covered := Nat.zero_le _
  tokens _ := rfl
  seen _ _ _ := rfl
  all _ _ _ _ := Nat.min_le_left _ _
  size := Nat.zero_le _

section Books

variable {rates : Pricing} {l : Ledgers} {sessionId : String} {log : List UsageEvent} {epoch : Option ℕ} {dimensions : Dimensions}

/-- **An event of the log** is booked when it is the next one, and skipped when it is covered. -/
theorem Books.event (h : Books log epoch (l.session sessionId)) {i : ℕ} {e : UsageEvent} (he : log[i]? = some e)
    (hi : i ≤ (l.session sessionId).coveredThroughSeq) (occurredAt : ℤ) :
    let t := (recordUsageEventInTransaction rates l sessionId e occurredAt (some ⟨epoch, i + 1⟩) dimensions).session sessionId
    Books log epoch t ∧ t.coveredThroughSeq = max (l.session sessionId).coveredThroughSeq (i + 1) := by
  have hlength : i < log.length := (List.getElem?_eq_some_iff.1 he).1
  have hepoch : (l.session sessionId).runnerHistoryEpoch = epoch ∨ (l.session sessionId).runnerHistoryEpoch = none :=
    h.epoch.imp id And.left
  obtain ⟨hepoch', hskips, hbooks⟩ := @event_row rates l sessionId e occurredAt dimensions epoch hepoch (i + 1)
  dsimp only at hepoch' hskips hbooks ⊢
  generalize (recordUsageEventInTransaction rates l sessionId e occurredAt (some ⟨epoch, i + 1⟩) dimensions).session sessionId = t at *
  generalize l.session sessionId = s at *
  by_cases hcovers : i + 1 ≤ s.coveredThroughSeq
  · obtain ⟨hmetrics, -, hcounts, hcovered⟩ := hskips hcovers
    refine ⟨⟨.inl hepoch', ?_, ?_, ?_, ?_, ?_⟩, by rw [hcovered, max_eq_left hcovers]⟩
    · rw [hcovered]
      exact h.covered
    · rw [hmetrics, hcovered]
      exact h.tokens
    · rw [hcounts, hcovered]
      exact h.seen
    · rw [hcounts, hcovered]
      exact h.all
    · rw [hcounts]
      exact h.size
  · have hnext : s.coveredThroughSeq = i := by omega
    obtain ⟨hmetrics, hcounts, hcovered⟩ := hbooks (by omega)
    obtain ⟨hsize, hseen, -⟩ := countEvent_spec e h.size
    have htake : log.take (i + 1) = log.take i ++ [e] := by
      rw [List.take_add_one, he]
      rfl
    have hrecords : ∀ (k : Text) (bucket : RatePricedUsageBucket), amount k bucket (recordsThrough log (i + 1)) =
        amount k bucket (recordsThrough log i) + amount k bucket (records [e.payload]) := by
      intro k bucket
      unfold recordsThrough records
      rw [htake, List.map_append, List.map_cons, List.map_nil, List.filterMap_append]
      exact Grouped.amount_append _ k _ _
    refine ⟨⟨.inl hepoch', ?_, fun side => ?_, fun hcomplete k side => ?_, fun hshows hcomplete k bucket => ?_, ?_⟩, by rw [hcovered, hnext, max_eq_right (Nat.le_succ i)]⟩
    · rw [hcovered]
      exact hlength
    · rw [hmetrics side, hcovered, h.tokens side, hnext]
      unfold tokensThrough
      rw [htake, List.map_append, List.sum_append, List.map_cons, List.map_nil, List.sum_cons, List.sum_nil, Nat.add_zero]
      exact (Nat.cast_add _ _).symm
    · rw [hcounts] at hcomplete ⊢
      obtain ⟨hbefore, hadds⟩ := hseen hcomplete
      rw [hadds, h.seen hbefore, hcovered, hnext, hrecords]
    · rw [hcounts] at hcomplete ⊢
      obtain ⟨hbefore, hadds⟩ := hseen hcomplete
      have hall := h.all hshows hbefore k bucket
      rw [hnext] at hall
      rw [hadds, hcovered, hrecords]
      omega
    · rw [hcounts]
      exact hsize

variable {s : SessionUsage} {snapshot : SessionSnapshot}

theorem residual_eq (side : Side) : side.residual (reconciliation rates s snapshot dimensions) =
    (side.total snapshot - s.metrics side.metric -
      ((reconciliation rates s snapshot dimensions).residuals.map (fun x => (x.missing side.bucket : ℤ))).sum).toNat := by
  unfold reconciliation
  cases side <;> dsimp only [Side.residual, Side.total, Side.metric, Side.bucket] <;> rw [List.map_map] <;> rfl

theorem residuals_of_none (h : (reconciliation rates s snapshot dimensions).entries = none) :
    (reconciliation rates s snapshot dimensions).residuals = [] := by
  have hentries : usableEntries s.counts snapshot.ratePricedUsage = none := h
  unfold reconciliation
  dsimp only
  rw [hentries]
  rfl

theorem residuals_sum {es : List RatePricedUsageTotal} (h : (reconciliation rates s snapshot dimensions).entries = some es) (side : Side) :
    ((reconciliation rates s snapshot dimensions).residuals.map (fun x => (x.missing side.bucket : ℤ))).sum =
      ((es.map (fun e => missing s.counts e side.bucket)).sum : ℕ) := by
  have hentries : usableEntries s.counts snapshot.ratePricedUsage = some es := h
  obtain ⟨-, -, -, -, hresiduals⟩ := usableEntries_spec hentries
  unfold reconciliation
  dsimp only
  rw [hentries, Option.bind_some, hresiduals, Option.getD_some, List.map_map]
  clear hresiduals hentries h
  induction es with
  | nil => rfl
  | cons e es ih =>
    rw [List.map_cons, List.map_cons, List.sum_cons, List.filter_cons]
    cases hcarries : carriesTokens (missing s.counts e) with
    | true =>
      rw [if_pos rfl, List.map_cons, List.sum_cons, ih]
      exact (Nat.cast_add _ _).symm
    | false =>
      have hzero : missing s.counts e side.bucket = 0 := by
        unfold carriesTokens at hcarries
        simp only [Bool.or_eq_false_iff, decide_eq_false_iff_not] at hcarries
        obtain ⟨⟨⟨hinput, houtput⟩, -⟩, -⟩ := hcarries
        cases side with
        | input => exact Nat.eq_zero_of_not_pos hinput
        | output => exact Nat.eq_zero_of_not_pos houtput
      rw [if_neg Bool.false_ne_true, ih, hzero, Nat.zero_add]

theorem Books.missing_le (h : Books log epoch s) (ht : Truthful log epoch snapshot) {es : List RatePricedUsageTotal}
    (hes : (reconciliation rates s snapshot dimensions).entries = some es) (side : Side) :
    (es.map (fun e => missing s.counts e side.bucket)).sum ≤
      tokensThrough side log snapshot.seq - tokensThrough side log s.coveredThroughSeq := by
  obtain ⟨hcomplete, hvalue, -, -, -⟩ := usableEntries_spec hes
  obtain ⟨hnodup, -, hcount⟩ := accrued_entries (ht.entries es hvalue)
  refine le_trans ?_ (gained_le side log s.coveredThroughSeq snapshot.seq hnodup)
  rw [List.map_map]
  refine List.sum_le_sum (fun e he => ?_)
  have hmin : e.count side.bucket ≤ amount (ratePricedUsageKey e) side.bucket (recordsThrough log snapshot.seq) := by
    rw [hcount e he]
    exact Nat.min_le_left _ _
  unfold missing
  rw [h.seen hcomplete]
  exact Nat.sub_le_sub_right hmin _

/-- **After a true snapshot the tokens are those of the longer prefix.** -/
theorem Books.snapshot_tokens (h : Books log epoch s) (ht : Truthful log epoch snapshot) (side : Side) :
    s.metrics side.metric + side.residual (reconciliation rates s snapshot dimensions) +
      ((reconciliation rates s snapshot dimensions).residuals.map (fun x => (x.missing side.bucket : ℤ))).sum =
        tokensThrough side log (max s.coveredThroughSeq snapshot.seq) := by
  rw [residual_eq, h.tokens side, ht.total side]
  have hmono : tokensThrough side log (max s.coveredThroughSeq snapshot.seq) =
      max (tokensThrough side log s.coveredThroughSeq) (tokensThrough side log snapshot.seq) :=
    (Monotone.map_max (fun _ _ hmn => tokensThrough_mono side log hmn))
  rw [hmono]
  cases hes : (reconciliation rates s snapshot dimensions).entries with
  | none =>
    rw [residuals_of_none hes, List.map_nil, List.sum_nil]
    omega
  | some es =>
    have hle := h.missing_le ht hes side
    rw [residuals_sum hes]
    omega

theorem countSnapshot_rows (s : SessionUsage) (r : Reconciliation) (snapshot : SessionSnapshot) :
    (if invalidatesCounts s r snapshot then { s.counts with complete := false } else s.counts).rows = s.counts.rows := by
  split <;> rfl

theorem countSnapshot_size (hsize : s.counts.rows.size ≤ ratePricedUsageMaxEntries * 2) :
    (countSnapshot s (reconciliation rates s snapshot dimensions) snapshot).rows.size ≤ ratePricedUsageMaxEntries * 2 := by
  have hrows := countSnapshot_rows s (reconciliation rates s snapshot dimensions) snapshot
  unfold countSnapshot
  dsimp only
  generalize (if invalidatesCounts s (reconciliation rates s snapshot dimensions) snapshot then { s.counts with complete := false }
    else s.counts) = c at hrows ⊢
  cases hes : (reconciliation rates s snapshot dimensions).entries with
  | none =>
    rw [Option.elim_none, hrows]
    exact hsize
  | some es =>
    obtain ⟨-, -, hnodup, hfew, -⟩ := usableEntries_spec hes
    rw [Option.elim_some, (accountEntries_spec hnodup).2.2.2, hrows]
    exact hfew

theorem tokenCount_total (side : Side) (snapshot : SessionSnapshot) : side.total snapshot ≤ maxTokens := by
  cases side
  · exact tokenCount_le snapshot.tokensIn
  · exact tokenCount_le snapshot.tokensOut

theorem amount_eq_of_no_tokens (hshows : ShowsTokens log) {m n : ℕ} (hmn : m ≤ n) (hn : n ≤ log.length)
    (htokens : ∀ side, tokensThrough side log n ≤ tokensThrough side log m) (k : Text) (bucket : RatePricedUsageBucket) :
    amount k bucket (recordsThrough log n) = amount k bucket (recordsThrough log m) := by
  obtain ⟨rest, hrest, hrecords⟩ := through_split log hmn
  obtain ⟨later, -, hlater⟩ := through_split log hn
  have hempty : records (rest.map UsageEvent.payload) = [] := by
    refine List.eq_nil_iff_forall_not_mem.2 (fun r hr => ?_)
    have hnone : ∀ side : Side, r.count side.bucket = 0 := by
      intro side
      have hle := records_tokens_le side rest
      have hsum := htokens side
      rw [hrest side] at hsum
      have hone : r.count side.bucket ≤ ((records (rest.map UsageEvent.payload)).map (fun r => r.count side.bucket)).sum :=
        List.single_le_sum (fun x _ => Nat.zero_le x) _ (List.mem_map_of_mem hr)
      omega
    have hmem : r ∈ recordsThrough log log.length := by
      rw [hlater, hrecords]
      exact List.mem_append_left _ (List.mem_append_right _ hr)
    rcases hshows r hmem with hpos | hpos
    · exact absurd (hnone .input) (Nat.ne_of_gt hpos)
    · exact absurd (hnone .output) (Nat.ne_of_gt hpos)
  rw [hrecords, hempty, List.append_nil]

/-- **The counts after a true snapshot** are those of the longer prefix. -/
theorem Books.snapshot_counts (h : Books log epoch s) (ht : Truthful log epoch snapshot)
    (hcomplete : (countSnapshot s (reconciliation rates s snapshot dimensions) snapshot).complete = true) :
    (∀ (k : Text) (side : Side), (countSnapshot s (reconciliation rates s snapshot dimensions) snapshot).seen k side.bucket =
      amount k side.bucket (recordsThrough log (max s.coveredThroughSeq snapshot.seq))) ∧
    (ShowsTokens log → ∀ (k : Text) (bucket : RatePricedUsageBucket),
      min (amount k bucket (recordsThrough log (max s.coveredThroughSeq snapshot.seq))) maxTokens ≤
        (countSnapshot s (reconciliation rates s snapshot dimensions) snapshot).seen k bucket) := by
  have hmax : ∀ (k : Text) (bucket : RatePricedUsageBucket), amount k bucket (recordsThrough log (max s.coveredThroughSeq snapshot.seq)) =
      max (amount k bucket (recordsThrough log s.coveredThroughSeq)) (amount k bucket (recordsThrough log snapshot.seq)) :=
    fun k bucket => Monotone.map_max (fun _ _ hmn => amount_mono log hmn k bucket)
  have htokens := @Books.snapshot_tokens rates log epoch dimensions s snapshot h ht
  unfold countSnapshot at hcomplete ⊢
  dsimp only at hcomplete ⊢
  cases hes : (reconciliation rates s snapshot dimensions).entries with
  | none =>
    rw [hes, Option.elim_none] at hcomplete
    rw [Option.elim_none]
    by_cases hflag : invalidatesCounts s (reconciliation rates s snapshot dimensions) snapshot = true
    · rw [if_pos hflag] at hcomplete
      cases hcomplete
    · rw [if_neg hflag] at hcomplete ⊢
      unfold invalidatesCounts at hflag
      rw [hcomplete, Bool.true_and, hes] at hflag
      split at hflag
      · -- totals without entries leave no token over
        have hsame : ∀ side, tokensThrough side log (max s.coveredThroughSeq snapshot.seq) ≤
            tokensThrough side log s.coveredThroughSeq := by
          intro side
          have hzero : side.residual (reconciliation rates s snapshot dimensions) = 0 := by
            unfold Reconciliation.residualTokens at hflag
            rw [Bool.or_eq_true, decide_eq_true_iff, decide_eq_true_iff, not_or] at hflag
            cases side with
            | input => exact Nat.eq_zero_of_not_pos hflag.1
            | output => exact Nat.eq_zero_of_not_pos hflag.2
          have hside := htokens side
          rw [hzero, residuals_of_none hes, h.tokens side] at hside
          simp only [List.map_nil, List.sum_nil, Nat.cast_zero, add_zero] at hside
          omega
        have hle : s.coveredThroughSeq ≤ max s.coveredThroughSeq snapshot.seq := le_max_left _ _
        refine ⟨fun k side => ?_, fun hshows k bucket => ?_⟩
        · rw [h.seen hcomplete, amount_eq_of_tokens side hle (hsame side)]
        · rw [amount_eq_of_no_tokens hshows hle (max_le h.covered ht.seq) hsame]
          exact h.all hshows hcomplete k bucket
      · exact absurd rfl hflag
  | some es =>
    obtain ⟨hbefore, hvalue, hnodup, -, -⟩ := usableEntries_spec hes
    obtain ⟨-, hkeys, hcount⟩ := accrued_entries (ht.entries es hvalue)
    have hflag : invalidatesCounts s (reconciliation rates s snapshot dimensions) snapshot = false := by
      unfold invalidatesCounts
      rw [hvalue, hes, hbefore]
      rfl
    rw [hflag, if_neg Bool.false_ne_true, Option.elim_some]
    obtain ⟨hmem, hnot, -, -⟩ := accountEntries_spec (c := s.counts) hnodup
    -- a key without an entry has no record in the prefix of the snapshot
    have hkey : ∀ k, k ∉ es.map ratePricedUsageKey → ∀ bucket, amount k bucket (recordsThrough log snapshot.seq) = 0 := by
      intro k hk bucket
      unfold amount Grouped.amount recordsThrough
      rw [List.filter_eq_nil_iff.2 (fun r hr hrk => hk ((hkeys k).2 (List.mem_map.2 ⟨r, hr, of_decide_eq_true hrk⟩)))]
      rfl
    refine ⟨fun k side => ?_, fun hshows k bucket => ?_⟩
    · rw [hmax]
      by_cases hk : k ∈ es.map ratePricedUsageKey
      · obtain ⟨e, he, rfl⟩ := List.mem_map.1 hk
        have hcap := (amount_le_tokensThrough side log snapshot.seq (ratePricedUsageKey e)).trans
          ((ht.total side).ge.trans (tokenCount_total side snapshot))
        rw [(hmem e he).2, h.seen hbefore, hcount e he]
        congr 1
        exact min_eq_left hcap
      · rw [hnot k hk, h.seen hbefore, hkey k hk, Nat.max_zero]
    · have hall := h.all hshows hbefore k bucket
      rw [hmax]
      by_cases hk : k ∈ es.map ratePricedUsageKey
      · obtain ⟨e, he, rfl⟩ := List.mem_map.1 hk
        rw [(hmem e he).2, hcount e he]
        have hsame : recordsThrough log snapshot.seq = records ((log.take snapshot.seq).map UsageEvent.payload) := rfl
        rw [hsame]
        omega
      · rw [hnot k hk, hkey k hk, Nat.max_zero]
        exact hall

/-- **A true snapshot** books what its prefix has beyond the covered one, and nothing when it has none. -/
theorem Books.reconciled (h : Books log epoch (l.session sessionId)) (ht : Truthful log epoch snapshot) (negotiates : Bool) (now : ℤ) :
    let t := (reconcileUsageSnapshotInTransaction rates negotiates l sessionId snapshot now dimensions).session sessionId
    Books log epoch t ∧ t.coveredThroughSeq = max (l.session sessionId).coveredThroughSeq snapshot.seq := by
  dsimp only
  cases hcovers : coversNothing negotiates snapshot with
  | true =>
    rw [reconcile_covers_nothing hcovers]
    unfold coversNothing at hcovers
    simp only [Bool.and_eq_true, beq_iff_eq] at hcovers
    exact ⟨h, by rw [hcovers.1.2, Nat.max_zero]⟩
  | false =>
    obtain ⟨htokens, hcounts, hepoch, hcovered⟩ := @reconcile_row rates sessionId now dimensions l negotiates snapshot hcovers
    generalize (reconcileUsageSnapshotInTransaction rates negotiates l sessionId snapshot now dimensions).session sessionId = t at *
    generalize l.session sessionId = s at *
    have hthrough : t.coveredThroughSeq = max s.coveredThroughSeq snapshot.seq := by
      rw [hcovered]
      split
      · rfl
      · rename_i hne
        rcases h.epoch with hepoch | ⟨-, hzero⟩
        · exact absurd (hepoch.trans ht.epoch.symm) hne
        · rw [hzero, Nat.zero_max]
    refine ⟨⟨.inl (hepoch.trans ht.epoch), ?_, fun side => ?_, fun hcomplete k side => ?_, fun hshows hcomplete k bucket => ?_, ?_⟩, hthrough⟩
    · rw [hthrough]
      exact max_le h.covered ht.seq
    · rw [htokens side, hthrough]
      exact h.snapshot_tokens ht side
    · rw [hcounts] at hcomplete ⊢
      rw [hthrough]
      exact (h.snapshot_counts ht hcomplete).1 k side
    · rw [hcounts] at hcomplete ⊢
      rw [hthrough]
      exact (h.snapshot_counts ht hcomplete).2 hshows k bucket
    · rw [hcounts]
      exact countSnapshot_size h.size

end Books

end Wollipog.Usage

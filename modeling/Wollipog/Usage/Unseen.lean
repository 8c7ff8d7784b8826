import Wollipog.Usage.RatePriced
/-!
# Unseen — what the entries have beyond the counts is the usage that was not ingested

Entries and counts group records by one key and add them up, so the difference for a key is the accrual of the records
that only the runner has.
-/
namespace Wollipog.Usage

open Json (Text)

theorem arranged_keyValue (e : RatePricedUsageTotal) : Json.arranged id (keyValue e) = keyValue e := by
  unfold keyValue
  cases e.model <;> cases e.serviceTier <;> rfl

theorem wf_keyValue (e : RatePricedUsageTotal) : (keyValue e).Wf id := by
  unfold keyValue
  cases e.model <;> cases e.serviceTier <;> exact ⟨trivial, trivial, trivial, trivial⟩

theorem textOrNull_inj {a b : Option Text} (h : textOrNull a = textOrNull b) : a = b := by
  cases a <;> cases b <;> cases h <;> rfl

/-- **A key names its three parts.** -/
theorem ratePricedUsageKey_eq_iff (a b : RatePricedUsageTotal) : ratePricedUsageKey a = ratePricedUsageKey b ↔
    a.model = b.model ∧ a.serviceTier = b.serviceTier ∧
      a.requestInputTokens.isSome = b.requestInputTokens.isSome := by
  constructor
  · intro h
    have ha := Json.parse_stringify id (wf_keyValue a)
    have hb := Json.parse_stringify id (wf_keyValue b)
    have htext : Json.stringify (keyValue a) = Json.stringify (keyValue b) := h
    rw [htext, hb, arranged_keyValue, arranged_keyValue] at ha
    have hvalue : keyValue b = keyValue a := Option.some.inj ha
    unfold keyValue at hvalue
    rw [Json.Value.array.injEq, List.cons.injEq, List.cons.injEq, List.cons.injEq, Json.Value.bool.injEq] at hvalue
    obtain ⟨hmodel, htier, hinput, -⟩ := hvalue
    exact ⟨(textOrNull_inj hmodel).symm, (textOrNull_inj htier).symm, hinput.symm⟩
  · rintro ⟨hmodel, htier, hinput⟩
    unfold ratePricedUsageKey keyValue
    rw [hmodel, htier, hinput]

theorem join_ranges_isSome {a b : RatePricedUsageTotal} (h : a.requestInputTokens.isSome = b.requestInputTokens.isSome) :
    (a.join b).requestInputTokens.isSome = a.requestInputTokens.isSome := by
  unfold RatePricedUsageTotal.join
  revert h
  cases a.requestInputTokens <;> cases b.requestInputTokens <;> intro h <;> first | rfl | cases h

theorem join_count (a b : RatePricedUsageTotal) (bucket : RatePricedUsageBucket) :
    (a.join b).count bucket = min (a.count bucket + b.count bucket) maxTokens := rfl

theorem joins : Grouped.Joins ratePricedUsageKey RatePricedUsageTotal.join where
  key_join a b h := by
    obtain ⟨-, -, hinput⟩ := (ratePricedUsageKey_eq_iff a b).1 h
    exact (ratePricedUsageKey_eq_iff _ _).2 ⟨rfl, rfl, join_ranges_isSome hinput⟩
  comm a b h := by
    obtain ⟨hmodel, htier, hinput⟩ := (ratePricedUsageKey_eq_iff a b).1 h
    apply RatePricedUsageTotal.ext
    · exact hmodel
    · exact htier
    · unfold RatePricedUsageTotal.join
      cases a.requestInputTokens with
      | none => cases b.requestInputTokens <;> rfl
      | some r =>
        cases b.requestInputTokens with
        | none => rfl
        | some s => exact congrArg some (InputRange.ext (min_comm r.min s.min) (max_comm r.max s.max))
    · funext bucket
      rw [join_count, join_count, Nat.add_comm]
  assoc a b c hab hbc := by
    apply RatePricedUsageTotal.ext
    · rfl
    · rfl
    · unfold RatePricedUsageTotal.join
      cases a.requestInputTokens with
      | none => rfl
      | some r =>
        cases b.requestInputTokens with
        | none => rfl
        | some s =>
          cases c.requestInputTokens with
          | none => rfl
          | some t => exact congrArg some (InputRange.ext (min_assoc r.min s.min t.min) (max_assoc r.max s.max t.max))
    · funext bucket
      rw [join_count, join_count, join_count, join_count]
      omega

theorem tokenCount_le (value : Option ℚ) : tokenCount value ≤ maxTokens := by
  unfold tokenCount
  cases value with
  | none => exact Nat.zero_le _
  | some q =>
    rw [Option.elim_some]
    split
    · exact min_le_right _ _
    · exact Nat.zero_le _

/-- What every record keeps: bounded buckets, the net input within the input, the reasoning within the output. -/
structure RecordOk (r : RatePricedUsageTotal) : Prop where
  le : ∀ bucket, r.count bucket ≤ maxTokens
  net : r.count .netInputTokens ≤ r.count .inputTokens
  reasoning : r.count .reasoningOutputTokens ≤ r.count .outputTokens

theorem counts_ok (u : TokenUsage) (m t : Option Text) (i : Option InputRange) : RecordOk ⟨m, t, i, u.counts⟩ where
  le bucket := by
    cases bucket with
    | inputTokens => exact tokenCount_le u.inputTokens
    | netInputTokens => exact (Nat.sub_le _ _).trans (tokenCount_le u.inputTokens)
    | outputTokens => exact tokenCount_le u.outputTokens
    | cachedInputTokens => exact tokenCount_le u.cachedInputTokens
    | cacheCreationInputTokens => exact tokenCount_le u.cacheCreationInputTokens
    | reasoningOutputTokens => exact (min_le_left _ _).trans (tokenCount_le u.outputTokens)
  net := Nat.sub_le _ _
  reasoning := min_le_left _ _

theorem record_ok {p : SessionEventPayload} {r : RatePricedUsageTotal} (h : ratePricedUsageRecord p = some r) : RecordOk r := by
  cases p with
  | other => cases h
  | tokenUsage u =>
    unfold ratePricedUsageRecord at h
    simp only at h
    split at h
    · cases h
    · split at h
      · cases h
      · split at h
        · cases h
        · split at h
          · cases h
          · cases h
            exact counts_ok u _ _ _

theorem records_ok {payloads : List SessionEventPayload} : ∀ r ∈ records payloads, RecordOk r := by
  intro r hr
  obtain ⟨p, -, hp⟩ := List.mem_filterMap.1 hr
  exact record_ok hp

abbrev amount (k : Text) (bucket : RatePricedUsageBucket) (rs : List RatePricedUsageTotal) : Nat :=
  Grouped.amount ratePricedUsageKey (fun r => r.count bucket) k rs

theorem amount_le {rs : List RatePricedUsageTotal} {a b : RatePricedUsageBucket} (h : ∀ r ∈ rs, r.count a ≤ r.count b)
    (k : Text) : amount k a rs ≤ amount k b rs := by
  apply List.sum_le_sum
  intro r hr
  exact h r (List.mem_filter.1 hr).1

/-- **Accruing payloads is grouping their records.** -/
theorem accrued_eq (payloads : List SessionEventPayload) : accrued payloads =
    Grouped.addAll ratePricedUsageKey RatePricedUsageTotal.join ratePricedUsageMaxEntries (records payloads) := by
  unfold accrued Grouped.addAll records
  generalize ([] : List RatePricedUsageTotal) = totals
  induction payloads generalizing totals with
  | nil => rfl
  | cons p ps ih =>
    rw [List.foldlM_cons, List.filterMap_cons]
    unfold accrueRatePricedUsage
    cases ratePricedUsageRecord p with
    | none => exact ih totals
    | some r =>
      rw [List.foldlM_cons]
      congr 1
      funext l
      exact ih l

def countOf (totals : List RatePricedUsageTotal) (k : Text) (bucket : RatePricedUsageBucket) : Nat :=
  (Grouped.find ratePricedUsageKey k totals).elim 0 (fun e => e.count bucket)

/-- **The runner's entries**: there while the keys fit, one for each key, its buckets the capped sums. -/
theorem accrued_spec {payloads : List SessionEventPayload}
    (hkeys : Grouped.keyCount ratePricedUsageKey (records payloads) ≤ ratePricedUsageMaxEntries) :
    ∃ totals, accrued payloads = some totals ∧ (totals.map ratePricedUsageKey).Nodup ∧
      (∀ k, k ∈ totals.map ratePricedUsageKey ↔ k ∈ (records payloads).map ratePricedUsageKey) ∧
      (∀ k, Grouped.find ratePricedUsageKey k totals =
        Grouped.joined ratePricedUsageKey RatePricedUsageTotal.join k (records payloads)) ∧
      ∀ k bucket, countOf totals k bucket = min (amount k bucket (records payloads)) maxTokens := by
  obtain ⟨hnone, hsome⟩ := Grouped.addAll_spec ratePricedUsageMaxEntries joins (records payloads)
  rw [← accrued_eq] at hnone hsome
  obtain ⟨totals, ht⟩ := Option.ne_none_iff_exists'.1 (fun h => Nat.not_lt_of_le hkeys (hnone.1 h))
  obtain ⟨hnodup, hmem, hfind⟩ := hsome totals ht
  refine ⟨totals, ht, hnodup, hmem, hfind, ?_⟩
  intro k bucket
  unfold countOf
  rw [hfind k]
  exact Grouped.joined_amount joins (fun _ _ _ => rfl) _ (fun r hr => (records_ok r hr).le bucket) k

/-- **The control plane's counts**: complete while the keys fit, and the plain sums. -/
theorem ingested_spec (rs : List RatePricedUsageTotal)
    (hkeys : Grouped.keyCount ratePricedUsageKey rs ≤ ratePricedUsageMaxEntries * 2) :
    (rs.foldl countRatePricedUsageInTransaction Ingested.empty).complete = true ∧
      (∀ k, k ∈ (rs.foldl countRatePricedUsageInTransaction Ingested.empty).rows.keys ↔ k ∈ rs.map ratePricedUsageKey) ∧
      ∀ k bucket, (rs.foldl countRatePricedUsageInTransaction Ingested.empty).seen k bucket = amount k bucket rs := by
  induction rs using List.reverseRecOn with
  | nil => exact ⟨rfl, fun k => Iff.rfl, fun k bucket => rfl⟩
  | append_singleton rs r ih =>
    have hsub : Grouped.keyCount ratePricedUsageKey rs ≤ Grouped.keyCount ratePricedUsageKey (rs ++ [r]) :=
      Grouped.keyCount_le_of_subset (fun e he => List.mem_append_left [r] he)
    obtain ⟨hcomplete, hmem, hseen⟩ := ih (hsub.trans hkeys)
    rw [List.foldl_append, List.foldl_cons, List.foldl_nil]
    generalize rs.foldl countRatePricedUsageInTransaction Ingested.empty = c at hcomplete hmem hseen
    have hsize : Grouped.keyCount ratePricedUsageKey rs = c.rows.size := by
      rw [Grouped.keyCount_eq_length c.rows.nodup hmem, List.length_map]
      rfl
    have hroom : ¬((c.rows.get (ratePricedUsageKey r)).isNone ∧ ratePricedUsageMaxEntries * 2 ≤ c.rows.size) := by
      rintro ⟨hnone, hfull⟩
      rw [Option.isNone_iff_eq_none, OrdMap.get_eq_none_iff, hmem] at hnone
      rw [Grouped.keyCount_snoc_new hnone, hsize] at hkeys
      omega
    unfold countRatePricedUsageInTransaction
    rw [if_neg hroom]
    refine ⟨hcomplete, ?_, ?_⟩
    · intro k
      rw [OrdMap.mem_keys_set, hmem, List.map_append, List.mem_append, List.map_cons, List.map_nil, List.mem_singleton]
      exact or_comm
    · intro k bucket
      have hone : amount k bucket [r] = if k = ratePricedUsageKey r then r.count bucket else 0 := by
        unfold amount Grouped.amount
        by_cases hk : k = ratePricedUsageKey r
        · rw [List.filter_cons_of_pos (p := fun x => decide (ratePricedUsageKey x = k)) (decide_eq_true hk.symm), if_pos hk]
          rfl
        · rw [List.filter_cons_of_neg (by rw [decide_eq_true_eq]; exact Ne.symm hk), if_neg hk]
          rfl
      have hadd : amount k bucket (rs ++ [r]) = amount k bucket rs + amount k bucket [r] :=
        Grouped.amount_append _ k rs [r]
      rw [hadd, hone]
      unfold Ingested.seen at hseen ⊢
      rw [OrdMap.get_set]
      by_cases hk : k = ratePricedUsageKey r
      · subst hk
        rw [if_pos rfl, if_pos rfl, Option.getD_some, hseen]
      · rw [if_neg hk, if_neg hk, Nat.add_zero, hseen]

def missingOf (residuals : List (RatePricedUsageTotal × Counts)) (k : Text) (bucket : RatePricedUsageBucket) : Nat :=
  (Grouped.find (fun r => ratePricedUsageKey r.1) k residuals).elim 0 (fun r => r.2 bucket)

theorem eq_zero_of_not_carries {c : Counts} (h : carriesTokens c = false) (hnet : c .netInputTokens ≤ c .inputTokens)
    (hreasoning : c .reasoningOutputTokens ≤ c .outputTokens) (bucket : RatePricedUsageBucket) : c bucket = 0 := by
  unfold carriesTokens at h
  simp only [Bool.or_eq_false_iff, decide_eq_false_iff_not] at h
  obtain ⟨⟨⟨hinput, houtput⟩, hcached⟩, hcreation⟩ := h
  cases bucket <;> omega

/-- **The residuals of entries that hold counted and other usage** are the other usage. -/
theorem residuals_spec {entries : List RatePricedUsageTotal} {c : Ingested} (other : Text → Counts)
    (hn : (entries.map ratePricedUsageKey).Nodup) (hroom : c.rows.size + entries.length ≤ ratePricedUsageMaxEntries * 2)
    (hsum : ∀ k bucket, countOf entries k bucket = c.seen k bucket + other k bucket)
    (hnet : ∀ k, other k .netInputTokens ≤ other k .inputTokens)
    (hreasoning : ∀ k, other k .reasoningOutputTokens ≤ other k .outputTokens) :
    ∃ residuals, ratePricedResiduals entries c = some residuals ∧ ∀ k bucket, missingOf residuals k bucket = other k bucket := by
  have hfew : (entries.filter (fun e => (c.rows.get (ratePricedUsageKey e)).isNone)).length ≤ entries.length :=
    List.length_filter_le _ _
  unfold ratePricedResiduals
  rw [if_neg (by omega)]
  refine ⟨_, rfl, ?_⟩
  intro k bucket
  have hnodup : ((entries.map (fun e => (e, missing c e))).map (fun r => ratePricedUsageKey r.1)).Nodup := by
    rw [List.map_map]
    exact hn
  have hmap : Grouped.find (fun r : RatePricedUsageTotal × Counts => ratePricedUsageKey r.1) k
        (entries.map (fun e => (e, missing c e))) =
      (Grouped.find ratePricedUsageKey k entries).map (fun e => (e, missing c e)) := Grouped.find_map (fun _ => rfl) k entries
  unfold missingOf
  rw [Grouped.find_filter hnodup, hmap]
  have hk := hsum k
  unfold countOf at hk
  cases he : Grouped.find ratePricedUsageKey k entries with
  | none =>
    rw [he] at hk
    have hzero := hk bucket
    rw [Option.elim_none] at hzero
    rw [Option.map_none, Option.filter_none, Option.elim_none]
    omega
  | some e =>
    have hkey := Grouped.find_key he
    subst hkey
    rw [he] at hk
    have hmissing : missing c e = other (ratePricedUsageKey e) := by
      funext b
      have hb := hk b
      rw [Option.elim_some] at hb
      unfold missing
      omega
    rw [Option.map_some, Option.filter_some, hmissing]
    by_cases hcarries : carriesTokens (other (ratePricedUsageKey e)) = true
    · rw [if_pos hcarries]
      rfl
    · rw [if_neg hcarries, Option.elim_none]
      exact (eq_zero_of_not_carries (Bool.eq_false_iff.2 hcarries) (hnet _) (hreasoning _) bucket).symm

/-- **Unseen usage is computed exactly**: the runner's entry less what was seen is the accrual of the unseen, in any order
of the payloads. -/
theorem unseen_usage_exact {payloads seen unseen : List SessionEventPayload} (hsplit : payloads.Perm (seen ++ unseen))
    (hcap : ∀ k bucket, amount k bucket (records payloads) ≤ maxTokens)
    (hkeys : Grouped.keyCount ratePricedUsageKey (records payloads) ≤ ratePricedUsageMaxEntries) :
    ∃ all part rest, accrued payloads = some all ∧ accrued seen = some part ∧ accrued unseen = some rest ∧
      (∀ k bucket, countOf part k bucket ≤ countOf all k bucket ∧
        countOf all k bucket - countOf part k bucket = countOf rest k bucket ∧
        countOf rest k bucket = amount k bucket (records unseen)) ∧
      ((ingested seen).complete = true ∧ ∀ k bucket, (ingested seen).seen k bucket = countOf part k bucket) ∧
      (∃ residuals, ratePricedResiduals all (ingested seen) = some residuals ∧
        ∀ k bucket, missingOf residuals k bucket = countOf rest k bucket) ∧
      ∀ payloads', payloads'.Perm payloads → ∃ all', accrued payloads' = some all' ∧
        ∀ k, Grouped.find ratePricedUsageKey k all' = Grouped.find ratePricedUsageKey k all := by
  have hrecords : (records payloads).Perm (records seen ++ records unseen) := by
    have h := hsplit.filterMap ratePricedUsageRecord
    rw [List.filterMap_append] at h
    exact h
  have hsum : ∀ k bucket, amount k bucket (records payloads) =
      amount k bucket (records seen) + amount k bucket (records unseen) := by
    intro k bucket
    exact (Grouped.amount_perm _ k hrecords).trans (Grouped.amount_append _ k _ _)
  have hseenKeys : Grouped.keyCount ratePricedUsageKey (records seen) ≤ ratePricedUsageMaxEntries :=
    (Grouped.keyCount_le_of_subset (fun r hr => hrecords.mem_iff.2 (List.mem_append_left _ hr))).trans hkeys
  have hunseenKeys : Grouped.keyCount ratePricedUsageKey (records unseen) ≤ ratePricedUsageMaxEntries :=
    (Grouped.keyCount_le_of_subset (fun r hr => hrecords.mem_iff.2 (List.mem_append_right _ hr))).trans hkeys
  obtain ⟨all, hall, hnodup, hmem, hfind, hcount⟩ := accrued_spec hkeys
  obtain ⟨part, hpart, -, -, -, hpartCount⟩ := accrued_spec hseenKeys
  obtain ⟨rest, hrest, -, -, -, hrestCount⟩ := accrued_spec hunseenKeys
  obtain ⟨hcomplete, hrowKeys, hseen⟩ := ingested_spec (records seen) (hseenKeys.trans (by decide))
  have hallSum : ∀ k bucket, countOf all k bucket = amount k bucket (records seen) + amount k bucket (records unseen) := by
    intro k bucket
    have h := hcap k bucket
    rw [hcount, min_eq_left h, hsum]
  have hpartSum : ∀ k bucket, countOf part k bucket = amount k bucket (records seen) := by
    intro k bucket
    have h := hcap k bucket
    rw [hsum] at h
    rw [hpartCount, min_eq_left (by omega)]
  have hrestSum : ∀ k bucket, countOf rest k bucket = amount k bucket (records unseen) := by
    intro k bucket
    have h := hcap k bucket
    rw [hsum] at h
    rw [hrestCount, min_eq_left (by omega)]
  refine ⟨all, part, rest, hall, hpart, hrest, ?_, ⟨hcomplete, ?_⟩, ?_, ?_⟩
  · intro k bucket
    rw [hallSum, hpartSum, hrestSum]
    omega
  · intro k bucket
    rw [hpartSum]
    exact hseen k bucket
  · have hrows : (ingested seen).rows.size ≤ ratePricedUsageMaxEntries := by
      have h := Grouped.keyCount_eq_length (ingested seen).rows.nodup hrowKeys
      rw [List.length_map] at h
      rw [h] at hseenKeys
      exact hseenKeys
    have hentries : all.length ≤ ratePricedUsageMaxEntries := by
      have h := Grouped.keyCount_eq_length hnodup hmem
      rw [List.length_map] at h
      omega
    obtain ⟨residuals, hresiduals, hmissing⟩ := residuals_spec (c := ingested seen)
      (fun k bucket => amount k bucket (records unseen)) hnodup (by omega) (fun k bucket => by rw [hallSum]; exact congrArg (· + _) (hseen k bucket).symm)
      (amount_le (fun r hr => (records_ok r hr).net)) (amount_le (fun r hr => (records_ok r hr).reasoning))
    refine ⟨residuals, hresiduals, ?_⟩
    intro k bucket
    rw [hmissing, hrestSum]
  · intro payloads' hperm
    have hrecords' : (records payloads').Perm (records payloads) := hperm.filterMap ratePricedUsageRecord
    have hkeys' : Grouped.keyCount ratePricedUsageKey (records payloads') ≤ ratePricedUsageMaxEntries := by
      rw [Grouped.keyCount_perm hrecords']
      exact hkeys
    obtain ⟨all', hall', -, -, hfind', -⟩ := accrued_spec hkeys'
    refine ⟨all', hall', ?_⟩
    intro k
    rw [hfind', hfind, Grouped.joined_perm joins hrecords']

def sampleUsage (input output : ℚ) (tier : TierField) : SessionEventPayload := .tokenUsage {
  inputTokens := some input
  outputTokens := some output
  cachedInputTokens := none
  cacheCreationInputTokens := none
  reasoningOutputTokens := none
  model := some [32, 109]
  costUsd := none
  accountingIncomplete := false
  liveUsage := none
  independentUsage := false
  serviceTier := tier
  requestInputTokens := some input
  parentToolUseId := none }

theorem unseen_usage_exact_sample :
    ∃ all part rest, accrued [sampleUsage 3 2 .absent, sampleUsage 5 0 (.text [120]), sampleUsage 4 1 .absent] = some all ∧
      accrued [sampleUsage 3 2 .absent, sampleUsage 4 1 .absent] = some part ∧
      accrued [sampleUsage 5 0 (.text [120])] = some rest ∧
      ∀ k bucket, countOf all k bucket - countOf part k bucket = countOf rest k bucket := by
  have hsplit : [sampleUsage 3 2 .absent, sampleUsage 5 0 (.text [120]), sampleUsage 4 1 .absent].Perm
      ([sampleUsage 3 2 .absent, sampleUsage 4 1 .absent] ++ [sampleUsage 5 0 (.text [120])]) :=
    (List.Perm.swap _ _ []).cons _
  have htotals : ∀ bucket, ((records [sampleUsage 3 2 .absent, sampleUsage 5 0 (.text [120]),
      sampleUsage 4 1 .absent]).map (fun r => r.count bucket)).sum ≤ maxTokens := by
    intro bucket
    cases bucket <;> decide +kernel
  have hkeys : Grouped.keyCount ratePricedUsageKey (records [sampleUsage 3 2 .absent, sampleUsage 5 0 (.text [120]),
      sampleUsage 4 1 .absent]) ≤ ratePricedUsageMaxEntries := by decide +kernel
  obtain ⟨all, part, rest, hall, hpart, hrest, hcount, -⟩ :=
    unseen_usage_exact hsplit (fun k bucket => (Grouped.amount_le_total _ k _).trans (htotals bucket)) hkeys
  exact ⟨all, part, rest, hall, hpart, hrest, fun k bucket => (hcount k bucket).2.1⟩

end Wollipog.Usage

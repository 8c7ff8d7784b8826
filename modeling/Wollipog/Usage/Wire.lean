import Wollipog.Lib.JsonNumber
import Wollipog.Reviews.Contract
import Wollipog.Usage.Ledgers
import Wollipog.Usage.Unseen
/-!
# Wire — the runner's usage entries, written and parsed back

The control plane accepts the list whole or not at all. On a written list the JSON parser is the parser of entries;
that asks one thing more than the accrual keeps, of a model's name.
-/
namespace Wollipog.Usage

open Json (Text CodeUnit Value Numerals)
open Reviews (lit)

def RatePricedUsageBucket.name : RatePricedUsageBucket → Text
  | .inputTokens => lit "inputTokens"
  | .netInputTokens => lit "netInputTokens"
  | .outputTokens => lit "outputTokens"
  | .cachedInputTokens => lit "cachedInputTokens"
  | .cacheCreationInputTokens => lit "cacheCreationInputTokens"
  | .reasoningOutputTokens => lit "reasoningOutputTokens"

def RATE_PRICED_USAGE_BUCKETS : List RatePricedUsageBucket :=
  [.inputTokens, .netInputTokens, .outputTokens, .cachedInputTokens, .cacheCreationInputTokens, .reasoningOutputTokens]

variable (N : Numerals)

def InputRange.wire (r : InputRange) : Value :=
  .object [(lit "min", some (.number (N.write r.min))), (lit "max", some (.number (N.write r.max)))]

def RatePricedUsageTotal.members (e : RatePricedUsageTotal) : List (Text × Option Value) :=
  [(lit "model", e.model.map .string), (lit "serviceTier", e.serviceTier.map .string),
    (lit "requestInputTokens", e.requestInputTokens.map (InputRange.wire N))] ++
  RATE_PRICED_USAGE_BUCKETS.map (fun bucket => (bucket.name, some (.number (N.write (e.count bucket)))))

def wireEntries (totals : List RatePricedUsageTotal) : Value := .array (totals.map (fun e => .object (e.members N)))

/-- `typeof raw === "object" && raw !== null` -/
def isObject : Value → Bool
  | .object _ => true
  | .array _ => true
  | _ => false

/-- `raw[key]`; an array has no such key. -/
def member (raw : Value) (key : Text) : Option Value :=
  match raw with
  | .object m => Json.get m key
  | _ => none

def finite : Option Value → Option ℚ
  | some (.number n) => N.value n
  | _ => none

def count (raw : Option Value) : Option ℕ :=
  (finite N raw).bind (fun q =>
    if q.den = 1 ∧ q ≤ 9007199254740991 ∧ 0 ≤ q ∧ q ≤ maxTokens then some q.num.toNat else none)

/-- `entry.model !== undefined && boundedText(entry.model, 128) !== entry.model` -/
def refusesModel : Option Value → Bool
  | none => false
  | some (.string s) => decide (boundedText (some s) 128 ≠ some s)
  | some _ => true

def refusesTier : Option Value → Bool
  | none => false
  | some (.string s) => decide (64 < s.length)
  | some _ => true

def textOf : Option Value → Option Text
  | some (.string s) => some s
  | _ => none

/-- `none` where the range is refused. -/
def parseRange : Option Value → Option (Option InputRange)
  | none => some none
  | some range =>
    if isObject range then
      (finite N (member range (lit "min"))).bind (fun min => (finite N (member range (lit "max"))).bind (fun max =>
        if min < 0 ∨ max < min then none else some (some ⟨min, max⟩)))
    else none

def parseEntry (raw : Value) : Option RatePricedUsageTotal :=
  if isObject raw = false then none
  else if refusesModel (member raw (lit "model")) then none
  else if refusesTier (member raw (lit "serviceTier")) then none
  else if RATE_PRICED_USAGE_BUCKETS.all (fun bucket => (count N (member raw bucket.name)).isSome) then
    (parseRange N (member raw (lit "requestInputTokens"))).map (fun requestInputTokens => {
      model := textOf (member raw (lit "model"))
      serviceTier := textOf (member raw (lit "serviceTier"))
      requestInputTokens := requestInputTokens
      count := fun bucket => (count N (member raw bucket.name)).getD 0 })
  else none

def parseEntries : List Value → List RatePricedUsageTotal → Option (List RatePricedUsageTotal)
  | [], entries => some entries
  | raw :: rest, entries => (parseEntry N raw).bind (fun parsed =>
      if (entries.map ratePricedUsageKey).contains (ratePricedUsageKey parsed) then none
      else parseEntries rest (entries ++ [parsed]))

/-- `parseRatePricedUsage` on a JSON value. -/
def parseRatePricedUsageJson : Value → Option (List RatePricedUsageTotal)
  | .array l => if ratePricedUsageMaxEntries < l.length then none else parseEntries N l []
  | _ => none

/-- `parseRatePricedUsage(JSON.parse(JSON.stringify(totals)))` -/
def roundTrip (totals : List RatePricedUsageTotal) : Option (List RatePricedUsageTotal) :=
  (Json.parse N.toDouble (Json.stringify (wireEntries N totals))).bind (parseRatePricedUsageJson N)

/-! ## A written entry -/

section

variable {N}

structure Held (N : Numerals) (e : RatePricedUsageTotal) : Prop where
  counts : ∀ bucket, N.Held (e.count bucket)
  range : ∀ r, e.requestInputTokens = some r → N.Held r.min ∧ N.Held r.max

theorem members_nodup (e : RatePricedUsageTotal) : ((e.members N).map Prod.fst).Nodup := by
  have hkeys : (e.members N).map Prod.fst =
      [lit "model", lit "serviceTier", lit "requestInputTokens", lit "inputTokens", lit "netInputTokens", lit "outputTokens",
        lit "cachedInputTokens", lit "cacheCreationInputTokens", lit "reasoningOutputTokens"] := rfl
  rw [hkeys]
  decide

theorem range_nodup (r : InputRange) : ([(lit "min", some (Value.number (N.write r.min))),
    (lit "max", some (Value.number (N.write r.max)))].map Prod.fst).Nodup := by
  have hkeys : [(lit "min", some (Value.number (N.write r.min))), (lit "max", some (Value.number (N.write r.max)))].map
      Prod.fst = [lit "min", lit "max"] := rfl
  rw [hkeys]
  decide

variable {e : RatePricedUsageTotal}

variable {k : Text} {r : RatePricedUsageTotal} {payloads : List SessionEventPayload} {totals : List RatePricedUsageTotal}

theorem member_arranged {o : Option Value} (h : (k, o) ∈ e.members N) :
    member (Json.arranged id (.object (e.members N))) k = o.map (Json.arranged id) := by
  have hget := Json.get_arranged (members_nodup (N := N) e) k
  rw [Json.get_of_mem (members_nodup e) h] at hget
  exact hget

theorem member_text {o : Option Text} (h : (k, o.map Value.string) ∈ e.members N) :
    member (Json.arranged id (.object (e.members N))) k = o.map Value.string := by
  rw [member_arranged h]
  cases o <;> rfl

theorem textOf_map (o : Option Text) : textOf (o.map Value.string) = o := by cases o <;> rfl

theorem refusesModel_map (o : Option Text) :
    refusesModel (o.map Value.string) = !o.all (fun m => boundedText (some m) 128 == some m) := by
  cases o with
  | none => rfl
  | some s =>
    show decide (boundedText (some s) 128 ≠ some s) = !(boundedText (some s) 128 == some s)
    by_cases h : boundedText (some s) 128 = some s
    · rw [h, beq_self_eq_true]
      exact decide_eq_false fun hne => hne rfl
    · rw [beq_eq_false_iff_ne.2 h]
      exact decide_eq_true h

theorem refusesTier_map (o : Option Text) : refusesTier (o.map Value.string) = !o.all (fun t => decide (t.length ≤ 64)) := by
  cases o with
  | none => rfl
  | some s =>
    show decide (64 < s.length) = !decide (s.length ≤ 64)
    rw [← decide_not]
    exact decide_eq_decide.2 Nat.not_le.symm

theorem count_write {n : ℕ} (h : N.Held n) : count N (some (.number (N.write n))) = if n ≤ maxTokens then some n else none := by
  have hfinite : finite N (some (.number (N.write n))) = some (n : ℚ) := N.value_write n h
  rw [count, hfinite, Option.bind_some]
  have hnum : (n : ℚ).num.toNat = n := by rw [Rat.num_natCast, Int.toNat_natCast]
  by_cases hn : n ≤ maxTokens
  · have hcap : (n : ℚ) ≤ maxTokens := by exact_mod_cast hn
    have hsafe : (n : ℚ) ≤ 9007199254740991 := hcap.trans (by norm_num [maxTokens])
    rw [if_pos ⟨Rat.den_natCast n, hsafe, Nat.cast_nonneg n, hcap⟩, if_pos hn, hnum]
  · have hcap : ¬((n : ℚ) ≤ maxTokens) := by exact_mod_cast hn
    rw [if_neg (fun h => hcap h.2.2.2), if_neg hn]

theorem parseRange_wire {o : Option InputRange} (h : ∀ r, o = some r → N.Held r.min ∧ N.Held r.max) :
    parseRange N ((o.map (InputRange.wire N)).map (Json.arranged id)) =
      if o.all (fun r => decide (0 ≤ r.min) && decide (r.min ≤ r.max)) then some o else none := by
  cases o with
  | none => rfl
  | some r =>
    obtain ⟨hmin, hmax⟩ := h r rfl
    have hread : ∀ {k : Text} {q : ℚ}, N.Held q → (k, some (Value.number (N.write q))) ∈
        [(lit "min", some (Value.number (N.write r.min))), (lit "max", some (Value.number (N.write r.max)))] →
        finite N (member (Json.arranged id (r.wire N)) k) = some q := by
      intro k q hq hmem
      have hget := Json.get_arranged (range_nodup (N := N) r) k
      rw [Json.get_of_mem (range_nodup r) hmem] at hget
      have hmember : member (Json.arranged id (r.wire N)) k = some (.number (N.write q)) := hget
      rw [hmember]
      exact N.value_write q hq
    have hrange : parseRange N (some (Json.arranged id (r.wire N))) =
        (finite N (member (Json.arranged id (r.wire N)) (lit "min"))).bind (fun min =>
          (finite N (member (Json.arranged id (r.wire N)) (lit "max"))).bind (fun max =>
            if min < 0 ∨ max < min then none else some (some ⟨min, max⟩))) := rfl
    rw [Option.map_some, Option.map_some, hrange, hread hmin List.mem_cons_self, Option.bind_some,
      hread hmax (List.mem_cons_of_mem _ List.mem_cons_self), Option.bind_some, Option.all_some]
    by_cases hok : 0 ≤ r.min ∧ r.min ≤ r.max
    · rw [if_neg (by rintro (hneg | hlt) <;> linarith [hok.1, hok.2]), decide_eq_true hok.1, decide_eq_true hok.2]
      rfl
    · have hbad : r.min < 0 ∨ r.max < r.min := by
        by_contra hnot
        rw [not_or, not_lt, not_lt] at hnot
        exact hok hnot
      rw [if_pos hbad, if_neg]
      rw [Bool.and_eq_true, decide_eq_true_iff, decide_eq_true_iff]
      exact hok

/-- **A written entry is read back** as the parser of entries takes it. -/
theorem parseEntry_wire (h : Held N e) :
    parseEntry N (Json.arranged id (.object (e.members N))) = if isEntry e then some e else none := by
  have hmodel : member (Json.arranged id (.object (e.members N))) (lit "model") = e.model.map Value.string :=
    member_text (List.mem_append_left _ List.mem_cons_self)
  have htier : member (Json.arranged id (.object (e.members N))) (lit "serviceTier") = e.serviceTier.map Value.string :=
    member_text (List.mem_append_left _ (List.mem_cons_of_mem _ List.mem_cons_self))
  have hinput : member (Json.arranged id (.object (e.members N))) (lit "requestInputTokens") =
      (e.requestInputTokens.map (InputRange.wire N)).map (Json.arranged id) :=
    member_arranged (List.mem_append_left _ (List.mem_cons_of_mem _ (List.mem_cons_of_mem _ List.mem_cons_self)))
  have hall : ∀ bucket, bucket ∈ RATE_PRICED_USAGE_BUCKETS := by
    intro bucket
    cases bucket <;> decide
  have hcount : ∀ bucket : RatePricedUsageBucket, count N (member (Json.arranged id (.object (e.members N))) bucket.name) =
      if e.count bucket ≤ maxTokens then some (e.count bucket) else none := by
    intro bucket
    have hmem : (bucket.name, some (Value.number (N.write (e.count bucket)))) ∈ e.members N :=
      List.mem_append_right _ (List.mem_map.2 ⟨bucket, hall bucket, rfl⟩)
    rw [member_arranged hmem]
    exact count_write (h.counts bucket)
  have hcounts : RATE_PRICED_USAGE_BUCKETS.all (fun bucket =>
      (count N (member (Json.arranged id (.object (e.members N))) bucket.name)).isSome) =
      RATE_PRICED_USAGE_BUCKETS.all (fun bucket => decide (e.count bucket ≤ maxTokens)) := by
    congr 1
    funext bucket
    rw [hcount]
    by_cases hle : e.count bucket ≤ maxTokens
    · rw [if_pos hle, decide_eq_true hle]
      rfl
    · rw [if_neg hle, decide_eq_false hle]
      rfl
  have hobject : isObject (Json.arranged id (.object (e.members N))) = true := rfl
  have hentry : isEntry e = (e.model.all (fun m => boundedText (some m) 128 == some m) &&
      e.serviceTier.all (fun t => decide (t.length ≤ 64)) &&
      RATE_PRICED_USAGE_BUCKETS.all (fun bucket => decide (e.count bucket ≤ maxTokens)) &&
      e.requestInputTokens.all (fun r => decide (0 ≤ r.min) && decide (r.min ≤ r.max))) := rfl
  unfold parseEntry
  rw [if_neg (by rw [hobject]; exact Bool.noConfusion), hmodel, htier, hcounts, hinput, refusesModel_map, refusesTier_map,
    parseRange_wire h.range, textOf_map, textOf_map, hentry]
  cases e.model.all (fun m => boundedText (some m) 128 == some m) with
  | false => rfl
  | true =>
    cases e.serviceTier.all (fun t => decide (t.length ≤ 64)) with
    | false => rfl
    | true =>
      cases hle : RATE_PRICED_USAGE_BUCKETS.all (fun bucket => decide (e.count bucket ≤ maxTokens)) with
      | false => rfl
      | true =>
        cases e.requestInputTokens.all (fun r => decide (0 ≤ r.min) && decide (r.min ≤ r.max)) with
        | false => rfl
        | true =>
          have hsame : (fun bucket : RatePricedUsageBucket =>
              (count N (member (Json.arranged id (.object (e.members N))) bucket.name)).getD 0) = e.count := by
            funext bucket
            rw [hcount, if_pos (of_decide_eq_true (List.all_eq_true.1 hle bucket (hall bucket)))]
            rfl
          rw [hsame]
          rfl

theorem parseEntries_wire : ∀ {totals entries : List RatePricedUsageTotal}, (∀ e ∈ totals, Held N e) →
    (entries.map ratePricedUsageKey).Nodup →
    parseEntries N (totals.map (fun e => Json.arranged id (.object (e.members N)))) entries =
      if totals.all isEntry = true ∧ ((entries ++ totals).map ratePricedUsageKey).Nodup then some (entries ++ totals) else none
  | [], entries, _, hn => by
    rw [List.append_nil, if_pos ⟨rfl, hn⟩]
    rfl
  | e :: totals, entries, h, hn => by
    rw [List.map_cons, parseEntries, parseEntry_wire (h e List.mem_cons_self), List.all_cons]
    cases he : isEntry e with
    | false => rfl
    | true =>
      rw [if_pos rfl, Option.bind_some, Bool.true_and]
      by_cases hseen : ratePricedUsageKey e ∈ entries.map ratePricedUsageKey
      · rw [if_pos (List.contains_iff_mem.2 hseen), if_neg]
        rintro ⟨-, hnodup⟩
        rw [List.map_append, List.map_cons, List.nodup_append] at hnodup
        exact hnodup.2.2 _ hseen _ List.mem_cons_self rfl
      · have hnext : ((entries ++ [e]).map ratePricedUsageKey).Nodup := by
          rw [List.map_append, List.map_singleton, ← List.concat_eq_append]
          exact hn.concat hseen
        rw [if_neg (fun hin => hseen (List.contains_iff_mem.1 hin)),
          parseEntries_wire (fun x hx => h x (List.mem_cons_of_mem _ hx)) hnext, List.append_assoc]
        rfl

theorem wf_members (h : Held N e) : (Value.object (e.members N)).Wf N.toDouble := by
  refine ⟨members_nodup e, Json.wfMembers_iff.2 ?_⟩
  rintro ⟨k, v⟩ hdefined
  rcases List.mem_append.1 (Json.mem_defined.1 hdefined) with htext | hcount
  · rcases List.mem_cons.1 htext with heq | hrest
    · obtain ⟨s, -, rfl⟩ := Option.map_eq_some_iff.1 (Prod.mk.inj heq).2.symm
      trivial
    · rcases List.mem_cons.1 hrest with heq | hrange
      · obtain ⟨s, -, rfl⟩ := Option.map_eq_some_iff.1 (Prod.mk.inj heq).2.symm
        trivial
      · obtain ⟨r, hr, rfl⟩ := Option.map_eq_some_iff.1 (Prod.mk.inj (List.mem_singleton.1 hrange)).2.symm
        obtain ⟨hmin, hmax⟩ := h.range r hr
        exact ⟨range_nodup r, N.toDouble_write _ hmin, N.toDouble_write _ hmax, trivial⟩
  · obtain ⟨bucket, -, heq⟩ := List.mem_map.1 hcount
    obtain rfl := Option.some.inj (Prod.mk.inj heq).2
    exact N.toDouble_write _ (h.counts bucket)

/-- **On a written list the JSON parser is the parser of entries.** -/
theorem roundTrip_eq (h : ∀ e ∈ totals, Held N e) : roundTrip N totals = parseRatePricedUsage totals := by
  have hwf : (wireEntries N totals).Wf N.toDouble := by
    refine Json.wfElements_iff.2 fun v hv => ?_
    obtain ⟨e, he, rfl⟩ := List.mem_map.1 hv
    exact wf_members (h e he)
  have harranged : Json.arranged id (wireEntries N totals) =
      .array (totals.map (fun e => Json.arranged id (.object (e.members N)))) := by
    show Value.array (Json.arrangedElements id _) = _
    rw [Json.arrangedElements_eq, List.map_map]
    rfl
  rw [roundTrip, Json.parse_stringify N.toDouble hwf, Option.bind_some, harranged, parseRatePricedUsageJson,
    List.length_map, parseRatePricedUsage]
  by_cases hlong : ratePricedUsageMaxEntries < totals.length
  · rw [if_pos hlong, if_neg (fun hvalid => absurd hvalid.1 (Nat.not_le.2 hlong))]
  · rw [if_neg hlong, parseEntries_wire h (show ([].map ratePricedUsageKey).Nodup from List.nodup_nil), List.nil_append]
    by_cases hvalid : totals.all isEntry = true ∧ (totals.map ratePricedUsageKey).Nodup
    · rw [if_pos hvalid, if_pos ⟨Nat.not_lt.1 hlong, hvalid⟩]
    · rw [if_neg hvalid, if_neg (fun hall => hvalid hall.2)]

/-! ## An accrued list -/

structure Sound (N : Numerals) (e : RatePricedUsageTotal) : Prop where
  counts : ∀ bucket, e.count bucket ≤ maxTokens
  tier : ∀ t, e.serviceTier = some t → t.length ≤ 64
  range : ∀ r, e.requestInputTokens = some r → 0 ≤ r.min ∧ r.min ≤ r.max ∧ N.Held r.min ∧ N.Held r.max

theorem Sound.held (h : Sound N e) : Held N e where
  counts bucket := N.held_nat _ ((h.counts bucket).trans (by decide))
  range r hr := (h.range r hr).2.2

theorem Sound.isEntry (h : Sound N e) : isEntry e = e.model.all (fun m => boundedText (some m) 128 == some m) := by
  have htier : e.serviceTier.all (fun t => decide (t.length ≤ 64)) = true := by
    rw [Option.all_eq_true]
    exact fun t ht => decide_eq_true (h.tier t ht)
  have hrange : e.requestInputTokens.all (fun r => decide (0 ≤ r.min) && decide (r.min ≤ r.max)) = true := by
    rw [Option.all_eq_true]
    exact fun r hr => by rw [decide_eq_true (h.range r hr).1, decide_eq_true (h.range r hr).2.1]; rfl
  have hcounts : [RatePricedUsageBucket.inputTokens, .netInputTokens, .outputTokens, .cachedInputTokens,
      .cacheCreationInputTokens, .reasoningOutputTokens].all (fun bucket => decide (e.count bucket ≤ maxTokens)) = true :=
    List.all_eq_true.2 fun bucket _ => decide_eq_true (h.counts bucket)
  rw [Usage.isEntry, htier, hcounts, hrange, Bool.and_true, Bool.and_true, Bool.and_true]

theorem Sound.join {a b : RatePricedUsageTotal} (ha : Sound N a) (hb : Sound N b) : Sound N (a.join b) where
  counts bucket := by
    rw [join_count]
    exact min_le_right _ _
  tier := ha.tier
  range r hr := by
    obtain ⟨x, hx, hr⟩ := Option.bind_eq_some_iff.1 hr
    obtain ⟨y, hy, rfl⟩ := Option.map_eq_some_iff.1 hr
    obtain ⟨hx0, hxle, hxmin, hxmax⟩ := ha.range x hx
    obtain ⟨hy0, hyle, hymin, hymax⟩ := hb.range y hy
    have hleast : N.Held (min x.min y.min) := by
      rcases min_choice x.min y.min with h | h
      · rw [h]
        exact hxmin
      · rw [h]
        exact hymin
    have hgreatest : N.Held (max x.max y.max) := by
      rcases max_choice x.max y.max with h | h
      · rw [h]
        exact hxmax
      · rw [h]
        exact hymax
    exact ⟨le_min hx0 hy0, (min_le_left _ _).trans (hxle.trans (le_max_left _ _)), hleast, hgreatest⟩

theorem record_cases {p : SessionEventPayload} (h : ratePricedUsageRecord p = some r) :
    ∃ u, p = .tokenUsage u ∧ r = ⟨boundedText u.model 128, u.serviceTier.bounded,
      (usable u.requestInputTokens).map (fun q => ⟨q, q⟩), u.counts⟩ := by
  cases p with
  | other => cases h
  | tokenUsage u =>
    unfold ratePricedUsageRecord at h
    simp only at h
    split at h
    · cases h
    split at h
    · cases h
    split at h
    · cases h
    split at h
    · cases h
    · cases h
      exact ⟨u, rfl, rfl⟩

def Numbers (N : Numerals) (payloads : List SessionEventPayload) : Prop :=
  ∀ u, .tokenUsage u ∈ payloads → ∀ q, u.requestInputTokens = some q → N.Held q

theorem sound_record (hnumbers : Numbers N payloads) (h : r ∈ records payloads) : Sound N r := by
  obtain ⟨p, hp, hrecord⟩ := List.mem_filterMap.1 h
  have hok := (record_ok hrecord).le
  obtain ⟨u, rfl, rfl⟩ := record_cases hrecord
  refine ⟨hok, fun t ht => ?_, fun x hx => ?_⟩
  · dsimp only at ht
    unfold TierField.bounded at ht
    split at ht
    · cases ht
    · cases ht
      exact List.length_take_le _ _
    · cases ht
      decide
  · obtain ⟨q, hq, rfl⟩ := Option.map_eq_some_iff.1 hx
    obtain ⟨hq, hpos⟩ := Option.filter_eq_some_iff.1 hq
    have hheld := hnumbers u hp q hq
    exact ⟨of_decide_eq_true hpos, le_refl q, hheld, hheld⟩

theorem sound_foldl {rs : List RatePricedUsageTotal} (h : ∀ r ∈ rs, Sound N r) : ∀ o : Option RatePricedUsageTotal,
    (∀ x, o = some x → Sound N x) → ∀ x, rs.foldl (Grouped.joinInto RatePricedUsageTotal.join) o = some x → Sound N x := by
  induction rs with
  | nil => exact fun o ho x hx => ho x hx
  | cons r rs ih =>
    intro o ho
    rw [List.foldl_cons]
    refine ih (fun x hx => h x (List.mem_cons_of_mem _ hx)) _ fun x hx => ?_
    have hr := h r List.mem_cons_self
    cases o with
    | none =>
      cases hx
      exact hr
    | some prior =>
      cases hx
      exact (ho prior rfl).join hr

/-- **The entries of a session**: few, sound, with different keys, and with the models of its records. -/
theorem accrued_sound (hnumbers : Numbers N payloads)
    (h : accrued payloads = some totals) : totals.length ≤ ratePricedUsageMaxEntries ∧
      (totals.map ratePricedUsageKey).Nodup ∧ (∀ e ∈ totals, Sound N e) ∧
      ∀ m, (∃ e ∈ totals, e.model = m) ↔ ∃ r ∈ records payloads, r.model = m := by
  obtain ⟨hnone, hsome⟩ := Grouped.addAll_spec ratePricedUsageMaxEntries joins (records payloads)
  rw [← accrued_eq] at hnone hsome
  obtain ⟨hnodup, hkeys, hfind⟩ := hsome totals h
  have hfew : totals.length ≤ ratePricedUsageMaxEntries := by
    have hcount := Grouped.keyCount_eq_length hnodup hkeys
    rw [List.length_map] at hcount
    rw [← hcount, ← Nat.not_lt, ← hnone, h]
    exact Option.some_ne_none totals
  refine ⟨hfew, hnodup, fun e he => ?_, fun m => ⟨?_, ?_⟩⟩
  · have hjoined := hfind (ratePricedUsageKey e)
    rw [Grouped.find_eq_some_of_mem hnodup he] at hjoined
    exact sound_foldl (fun r hr => sound_record hnumbers (List.mem_filter.1 hr).1) none (fun x hx => by cases hx) e
      hjoined.symm
  · rintro ⟨e, he, rfl⟩
    obtain ⟨r, hr, hkey⟩ := List.mem_map.1 ((hkeys _).1 (List.mem_map.2 ⟨e, he, rfl⟩))
    exact ⟨r, hr, ((ratePricedUsageKey_eq_iff r e).1 hkey).1⟩
  · rintro ⟨r, hr, rfl⟩
    obtain ⟨e, he, hkey⟩ := List.mem_map.1 ((hkeys _).2 (List.mem_map.2 ⟨r, hr, rfl⟩))
    exact ⟨e, he, ((ratePricedUsageKey_eq_iff e r).1 hkey).1⟩

def CutClean (model : Option Text) : Prop := ∀ s, model = some s → ∀ c, (trim s)[127]? = some c → isTrimmed c = false

theorem trim_eq_self_iff (s : Text) : trim s = s ↔ (∀ c ∈ s.head?, isTrimmed c = false) ∧ ∀ c ∈ s.getLast?, isTrimmed c = false := by
  have hhead : s.dropWhile isTrimmed = s ↔ ∀ c ∈ s.head?, isTrimmed c = false := by
    cases s with
    | nil => exact ⟨fun _ c hc => (by cases hc), fun _ => rfl⟩
    | cons a s =>
      rw [List.dropWhile_eq_self_iff]
      constructor
      · intro h c hc
        cases hc
        exact Bool.eq_false_iff.2 (h (Nat.succ_pos _))
      · exact fun h _ => Bool.eq_false_iff.1 (h a rfl)
  have hlast : s.rdropWhile isTrimmed = s ↔ ∀ c ∈ s.getLast?, isTrimmed c = false := by
    rw [List.rdropWhile_eq_self_iff]
    constructor
    · intro h c hc
      have hne : s ≠ [] := List.ne_nil_of_mem (List.mem_of_getLast? hc)
      have hsome := List.getLast?_eq_some_getLast hne
      rw [hc] at hsome
      cases hsome
      exact Bool.eq_false_iff.2 (h hne)
    · exact fun h hne => Bool.eq_false_iff.1 (h _ (List.getLast?_eq_some_getLast hne))
  constructor
  · intro h
    have hdrop : s.dropWhile isTrimmed = s := by
      refine (List.dropWhile_suffix _).eq_of_length_le ?_
      have hle := (List.rdropWhile_prefix isTrimmed (s.dropWhile isTrimmed)).length_le
      rw [show (s.dropWhile isTrimmed).rdropWhile isTrimmed = s from h] at hle
      exact hle
    refine ⟨hhead.1 hdrop, hlast.1 ?_⟩
    rw [trim, hdrop] at h
    exact h
  · rintro ⟨hh, hl⟩
    rw [trim, hhead.2 hh, hlast.2 hl]

theorem trim_trim (s : Text) : trim (trim s) = trim s := by
  rw [trim_eq_self_iff]
  constructor
  · intro c hc
    have hprefix := List.rdropWhile_prefix isTrimmed (s.dropWhile isTrimmed)
    obtain ⟨rest, hrest⟩ := hprefix
    have hne : trim s ≠ [] := List.ne_nil_of_mem (List.mem_of_mem_head? hc)
    have hfirst : (s.dropWhile isTrimmed).head? = some c := by
      rw [← hrest]
      exact (List.head?_append_of_ne_nil _ hne).trans hc
    have hstop := List.head?_dropWhile_not isTrimmed s
    rw [hfirst] at hstop
    exact Bool.eq_false_iff.2 (by simpa using hstop)
  · intro c hc
    have hne : trim s ≠ [] := List.ne_nil_of_mem (List.mem_of_getLast? hc)
    have hlast := List.rdropWhile_last_not isTrimmed (s.dropWhile isTrimmed) hne
    have hsome := List.getLast?_eq_some_getLast hne
    rw [hc] at hsome
    cases hsome
    exact Bool.eq_false_iff.2 hlast

/-- **A cut name stays as it is** exactly when it was not cut behind a space. -/
theorem boundedText_again (model : Option Text) :
    (boundedText model 128).all (fun m => boundedText (some m) 128 == some m) = true ↔ CutClean model := by
  cases model with
  | none => exact ⟨fun _ s hs => (by cases hs), fun _ => rfl⟩
  | some s =>
    have hclean : CutClean (some s) ↔ ∀ c, (trim s)[127]? = some c → isTrimmed c = false :=
      ⟨fun h => h s rfl, fun h t ht => by cases ht; exact h⟩
    have hself := (trim_eq_self_iff (trim s)).1 (trim_trim s)
    have hcut : boundedText (some s) 128 = if ((trim s).take 128).isEmpty then none else some ((trim s).take 128) := rfl
    rw [hclean, hcut]
    generalize trim s = t at hself ⊢
    by_cases hempty : (t.take 128).isEmpty = true
    · rw [if_pos hempty]
      refine ⟨fun _ c hc => ?_, fun _ => rfl⟩
      have hnil : t = [] := by simpa using hempty
      rw [hnil] at hc
      cases hc
    rw [if_neg hempty, Option.all_some, beq_iff_eq]
    have hbound : boundedText (some (t.take 128)) 128 = some (t.take 128) ↔ trim (t.take 128) = t.take 128 := by
      have hdef : boundedText (some (t.take 128)) 128 =
          if ((trim (t.take 128)).take 128).isEmpty then none else some ((trim (t.take 128)).take 128) := rfl
      have hshort : (trim (t.take 128)).length ≤ 128 :=
        ((List.rdropWhile_prefix _ _).length_le.trans (List.dropWhile_suffix _).length_le).trans (List.length_take_le _ _)
      rw [hdef, List.take_of_length_le hshort]
      constructor
      · intro h
        split at h
        · cases h
        · exact Option.some.inj h
      · intro h
        rw [h, if_neg hempty]
    rw [hbound, trim_eq_self_iff]
    have hne : t ≠ [] := by
      rintro rfl
      exact hempty rfl
    have hhead : ∀ c ∈ (t.take 128).head?, isTrimmed c = false := by
      intro c hc
      refine hself.1 c ?_
      rw [List.head?_take, if_neg (by decide)] at hc
      exact hc
    have hlast : ∀ c, c ∈ (t.take 128).getLast? ↔ if t.length < 128 then c ∈ t.getLast? else t[127]? = some c := by
      intro c
      split
      · rename_i hshort
        rw [List.take_of_length_le hshort.le]
      · rename_i hlong
        rw [Option.mem_def, List.getLast?_eq_getElem?, List.length_take, Nat.min_eq_left (Nat.not_lt.1 hlong),
          List.getElem?_take_of_lt (by decide)]
    constructor
    · rintro ⟨-, h⟩ c hc
      refine h c ((hlast c).2 ?_)
      rw [if_neg]
      · exact hc
      · have hlt := (List.getElem?_eq_some_iff.1 hc).1
        omega
    · intro h
      refine ⟨hhead, fun c hc => ?_⟩
      have hor := (hlast c).1 hc
      split at hor
      · exact hself.2 c hor
      · exact h c hor

theorem parse_accrued (hnumbers : Numbers N payloads) (h : accrued payloads = some totals) :
    roundTrip N totals = if totals.all isEntry then some totals else none := by
  obtain ⟨hfew, hnodup, hsound, -⟩ := accrued_sound hnumbers h
  rw [roundTrip_eq (fun e he => (hsound e he).held), parseRatePricedUsage]
  by_cases hall : totals.all isEntry = true
  · rw [if_pos ⟨hfew, hall, hnodup⟩, if_pos hall]
  · rw [if_neg (fun hvalid => hall hvalid.2.1), if_neg hall]

/-- **Usage survives the wire** exactly when no record's model is cut behind a space. -/
theorem wire_survives {payloads : List SessionEventPayload} (hnumbers : Numbers N payloads)
    {totals : List RatePricedUsageTotal} (h : accrued payloads = some totals) :
    roundTrip N totals = some totals ↔
      ∀ u, .tokenUsage u ∈ payloads → (ratePricedUsageRecord (.tokenUsage u)).isSome = true → CutClean u.model := by
  obtain ⟨-, -, hsound, hmodels⟩ := accrued_sound hnumbers h
  have hall : totals.all isEntry = true ↔
      ∀ r ∈ records payloads, r.model.all (fun m => boundedText (some m) 128 == some m) = true := by
    rw [List.all_eq_true]
    constructor
    · intro hentries r hr
      obtain ⟨e, he, hmodel⟩ := (hmodels r.model).2 ⟨r, hr, rfl⟩
      rw [← hmodel, ← (hsound e he).isEntry]
      exact hentries e he
    · intro hrecords e he
      obtain ⟨r, hr, hmodel⟩ := (hmodels e.model).1 ⟨e, he, rfl⟩
      rw [(hsound e he).isEntry, ← hmodel]
      exact hrecords r hr
  have htrip : roundTrip N totals = some totals ↔ totals.all isEntry = true := by
    rw [parse_accrued hnumbers h]
    constructor
    · intro heq
      by_contra hnot
      rw [if_neg hnot] at heq
      cases heq
    · exact fun hentries => if_pos hentries
  rw [htrip, hall]
  constructor
  · intro hrecords u hu hrecord
    obtain ⟨r, hr⟩ := Option.isSome_iff_exists.1 hrecord
    obtain ⟨v, hv, rfl⟩ := record_cases hr
    cases hv
    exact (boundedText_again u.model).1 (hrecords _ (List.mem_filterMap.2 ⟨_, hu, hr⟩))
  · intro hclean r hr
    obtain ⟨p, hp, hrecord⟩ := List.mem_filterMap.1 hr
    obtain ⟨u, rfl, rfl⟩ := record_cases hrecord
    exact (boundedText_again u.model).2 (hclean u hp (by rw [hrecord]; rfl))

end

def oneToken (model : Option Text) : TokenUsage where
  inputTokens := some 1
  outputTokens := none
  cachedInputTokens := none
  cacheCreationInputTokens := none
  reasoningOutputTokens := none
  model := model
  costUsd := none
  accountingIncomplete := false
  liveUsage := none
  independentUsage := false
  serviceTier := .absent
  requestInputTokens := none
  parentToolUseId := none

def spacedModel : Text := List.replicate 127 97 ++ [32, 98]

theorem numbers_oneToken (model : Option Text) : Numbers Numerals.whole [.tokenUsage (oneToken model)] := by
  intro u hu q hq
  cases List.mem_singleton.1 hu
  cases hq

theorem spaced_model_refused : ∃ totals, accrued [.tokenUsage (oneToken (some spacedModel))] = some totals ∧
    roundTrip Numerals.whole totals = none := by
  refine ⟨_, rfl, ?_⟩
  rw [parse_accrued (numbers_oneToken _) rfl, if_neg]
  decide +kernel

theorem wire_survives_named : ∃ totals, accrued [.tokenUsage (oneToken (some [97]))] = some totals ∧
    roundTrip Numerals.whole totals = some totals := by
  refine ⟨_, rfl, (wire_survives (numbers_oneToken _) rfl).2 fun u hu _ s hs c hc => ?_⟩
  cases List.mem_singleton.1 hu
  obtain rfl := Option.some.inj hs
  have hshort : (trim [97])[127]? = none := by decide
  rw [hshort] at hc
  cases hc

end Wollipog.Usage

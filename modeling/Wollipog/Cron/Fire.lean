import Wollipog.Cron.Field
import Wollipog.Cron.Zone
import Wollipog.Lib.Best
/-!
# Fire — the next fire of a schedule

On a day it tries the hours and minutes of the schedule in order, and stops where the offsets of the day keep the rest
from being better.
-/
namespace Wollipog.Cron

open Civil Best

def searchDays : Nat := 366 * 5

def includes (values : List Nat) (v : Int) : Bool := values.any (fun value => decide ((value : Int) = v))

def dayMatches (parsed : ParsedCron) (year month day : Int) : Bool :=
  if parsed.dayOfMonth.wildcard && parsed.dayOfWeek.wildcard then true
  else if parsed.dayOfMonth.wildcard then includes parsed.dayOfWeek.values (getUTCDay (dateUTC year (month - 1) day 0 0))
  else if parsed.dayOfWeek.wildcard then includes parsed.dayOfMonth.values day
  else includes parsed.dayOfMonth.values day || includes parsed.dayOfWeek.values (getUTCDay (dateUTC year (month - 1) day 0 0))

/-- `Math.min` over the offsets of a model, which has a segment. -/
def minimumOffset (model : List OffsetSegment) : Int := ((model.map OffsetSegment.offset).min?).getD 0

def maximumOffset (model : List OffsetSegment) : Int := ((model.map OffsetSegment.offset).max?).getD 0

def keep (after : ℚ) (best epoch : Option Int) : Option Int :=
  match epoch with
  | none => best
  | some epoch => if after < epoch then better best epoch else best

section

variable (year month day : Int) (model : List OffsetSegment) (after : ℚ)

/-- The minutes of an hour that are still to try; with the best it says whether the loop over the hours ends. -/
def minuteLoop (hour : Int) : List Nat → Option Int → Option Int × Bool
  | [], best => (best, false)
  | minute :: minutes, best =>
    if ((localMinute ⟨year, month, day, hour, minute⟩ - minimumOffset model : Int) : ℚ) ≤ after then minuteLoop hour minutes best
    else if best.any (fun best => decide (best ≤ localMinute ⟨year, month, day, hour, minute⟩ - maximumOffset model)) then (best, true)
    else minuteLoop hour minutes (keep after best (localEpoch ⟨year, month, day, hour, minute⟩ model))

def candidateLoop (minutes : List Nat) (lastMinute : Int) : List Nat → Option Int → Option Int
  | [], best => best
  | hour :: hours, best =>
    if ((dateUTC year (month - 1) day hour lastMinute - minimumOffset model : Int) : ℚ) ≤ after then
      candidateLoop minutes lastMinute hours best
    else if (minuteLoop year month day model after hour minutes best).2 then (minuteLoop year month day model after hour minutes best).1
    else candidateLoop minutes lastMinute hours (minuteLoop year month day model after hour minutes best).1

end

def dayFire (parsed : ParsedCron) (zone : Zone) (after : ℚ) (year month day : Int) : Option Int :=
  if includes parsed.month.values month && dayMatches parsed year month day then
    candidateLoop year month day (offsetModel year month day zone) after parsed.minute.values
      (parsed.minute.values.getLast parsed.minute.nonempty) parsed.hour.values none
  else none

def searchFrom (parsed : ParsedCron) (zone : Zone) (after : ℚ) : Nat → Int → Except String Int
  | 0, _ => .error "cron expression has no fire time within five years"
  | days + 1, cursor =>
    match dayFire parsed zone after (getUTCFullYear cursor) (getUTCMonth cursor + 1) (getUTCDate cursor) with
    | some best => .ok best
    | none => searchFrom parsed zone after days (setUTCDate cursor (getUTCDate cursor + 1))

/-- A cursor that is no finite number is `none`. -/
def nextCronFire (parsed : ParsedCron) (zone : Zone) (after : Option ℚ) : Except String Int :=
  match after with
  | none => .error "cron cursor must be a non-negative epoch"
  | some after =>
    if after < 0 then .error "cron cursor must be a non-negative epoch"
    else searchFrom parsed zone after searchDays
      (dateUTC (localParts ⌊after⌋ zone).year ((localParts ⌊after⌋ zone).month - 1) (localParts ⌊after⌋ zone).day 0 0)

/-- The date of a local time is one of the schedule's: of two restricted day fields one is enough. -/
def MatchesDate (parsed : ParsedCron) (wall : Int) : Prop :=
  includes parsed.month.values (getUTCMonth wall + 1) = true ∧
    if parsed.dayOfMonth.wildcard = true ∨ parsed.dayOfWeek.wildcard = true then
      includes parsed.dayOfMonth.values (getUTCDate wall) = true ∧ includes parsed.dayOfWeek.values (getUTCDay wall) = true
    else includes parsed.dayOfMonth.values (getUTCDate wall) = true ∨ includes parsed.dayOfWeek.values (getUTCDay wall) = true

def MatchesTime (parsed : ParsedCron) (wall : Int) : Prop :=
  includes parsed.hour.values (getUTCHours wall) = true ∧ includes parsed.minute.values (getUTCMinutes wall) = true

structure Matches (parsed : ParsedCron) (wall : Int) : Prop where
  minute : minuteMs ∣ wall
  modern : -dayMs ≤ wall
  date : MatchesDate parsed wall
  time : MatchesTime parsed wall

/-- An epoch behind the cursor that a local minute of the schedule resolves to, within the search horizon. -/
def Fires (parsed : ParsedCron) (zone : Zone) (after : ℚ) (e : Int) : Prop :=
  after < e ∧ ∃ wall, Matches parsed wall ∧ wall / dayMs < (⌊after⌋ + zone.offset ⌊after⌋) / dayMs + searchDays ∧
    resolve zone wall = some e

variable {e v wall wall' : Int} {hour minute : Nat} {walls : List Int}

theorem includes_iff {values : List Nat} : includes values v = true ↔ ∃ value ∈ values, (value : Int) = v := by
  unfold includes
  rw [List.any_eq_true]
  constructor
  · rintro ⟨value, hvalue, heq⟩
    exact ⟨value, hvalue, of_decide_eq_true heq⟩
  · rintro ⟨value, hvalue, heq⟩
    exact ⟨value, hvalue, decide_eq_true heq⟩

theorem includes_wildcard {min max : Nat} {field : CronField min max} (h : field.wildcard = true) (hmin : (min : Int) ≤ v)
    (hmax : v ≤ max) : includes field.values v = true := by
  rw [includes_iff]
  exact ⟨v.toNat, field.whole h v.toNat (by omega) (by omega), by omega⟩

variable {parsed : ParsedCron}

/-- **The day check** says that the date is one of the schedule's. -/
theorem dayMatches_iff (hmodern : -dayMs ≤ wall) : (includes parsed.month.values (getUTCMonth wall + 1) &&
      dayMatches parsed (getUTCFullYear wall) (getUTCMonth wall + 1) (getUTCDate wall)) = true ↔ MatchesDate parsed wall := by
  have hweek : getUTCDay (dateUTC (getUTCFullYear wall) (getUTCMonth wall + 1 - 1) (getUTCDate wall) 0 0) = getUTCDay wall := by
    rw [Int.add_sub_cancel, dateUTC_day (by unfold dayMs at *; omega)]
    unfold getUTCDay
    rw [Int.zero_mul, Int.zero_mul, Int.add_zero, Int.add_zero, Int.mul_ediv_cancel _ (by decide)]
  have hdow : parsed.dayOfWeek.wildcard = true → includes parsed.dayOfWeek.values (getUTCDay wall) = true := by
    intro hw
    apply includes_wildcard hw
    · unfold getUTCDay weekDay
      omega
    · unfold getUTCDay weekDay
      omega
  have hdom : parsed.dayOfMonth.wildcard = true → includes parsed.dayOfMonth.values (getUTCDate wall) = true := by
    intro hw
    apply includes_wildcard hw
    · exact dateFromDay_pos _
    · exact Int.le_trans (dateFromDay_le _) (monthLength_le _ _)
  unfold MatchesDate
  rw [Bool.and_eq_true]
  apply and_congr_right
  intro _
  unfold dayMatches
  rw [hweek]
  by_cases hm : parsed.dayOfMonth.wildcard = true
  · by_cases hw : parsed.dayOfWeek.wildcard = true
    · rw [if_pos (by rw [hm, hw]; rfl), if_pos (.inl hm)]
      exact ⟨fun _ => ⟨hdom hm, hdow hw⟩, fun _ => rfl⟩
    · rw [if_neg (by rw [hm, Bool.true_and]; exact hw), if_pos hm, if_pos (.inl hm)]
      exact ⟨fun h => ⟨hdom hm, h⟩, fun h => h.2⟩
  · by_cases hw : parsed.dayOfWeek.wildcard = true
    · rw [if_neg (by rw [hw, Bool.and_true]; exact hm), if_neg hm, if_pos hw, if_pos (.inr hw)]
      exact ⟨fun h => ⟨h, hdow hw⟩, fun h => h.1⟩
    · rw [if_neg (by rw [Bool.and_eq_true]; exact fun h => hm h.1), if_neg hm, if_neg hw, if_neg (not_or.2 ⟨hm, hw⟩), Bool.or_eq_true]

/-! ## The search of a day -/

variable {zone : Zone} {after : ℚ}

def Among (zone : Zone) (after : ℚ) (walls : List Int) (e : Int) : Prop :=
  after < e ∧ ∃ wall ∈ walls, resolve zone wall = some e

theorem among_cons :
    Among zone after (wall :: walls) e ↔ (after < e ∧ resolve zone wall = some e) ∨ Among zone after walls e := by
  unfold Among
  rw [List.exists_mem_cons_iff, and_or_left]

theorem among_append {walls' : List Int} :
    Among zone after (walls ++ walls') e ↔ Among zone after walls e ∨ Among zone after walls' e := by
  unfold Among
  simp only [List.mem_append, or_and_right, exists_or, and_or_left]

theorem keep_least (after : ℚ) {P : Int → Prop} {best : Option Int} (h : Least P best) (wall : Int) :
    Least (fun e => P e ∨ (after < e ∧ resolve zone wall = some e)) (keep after best (resolve zone wall)) := by
  unfold keep
  cases hresolve : resolve zone wall with
  | none => exact h.congr (fun e => by simp)
  | some epoch =>
    simp only
    by_cases hlt : after < epoch
    · rw [if_pos hlt]
      refine (h.insert epoch).congr (fun e => or_congr_right ?_)
      constructor
      · rintro ⟨-, heq⟩
        exact (Option.some.inj heq).symm
      · rintro rfl
        exact ⟨hlt, rfl⟩
    · rw [if_neg hlt]
      refine h.congr (fun e => or_iff_left ?_)
      rintro ⟨hafter, heq⟩
      cases heq
      exact hlt hafter

def timesOf (cursor hour : Int) (minutes : List Nat) : List Int := minutes.map (fun minute : Nat => cursor + hour * hourMs + minute * minuteMs)

def allTimes (cursor : Int) (minutes hours : List Nat) : List Int := hours.flatMap (fun hour : Nat => timesOf cursor hour minutes)

/-- A day that the search comes to: its cursor is its first moment, and `model` is its offset model. -/
structure Day (zone : Zone) (cursor year month day : Int) (model : List OffsetSegment) : Prop where
  whole : dayMs ∣ cursor
  modern : -dayMs ≤ cursor
  model_eq : model = offsetModel year month day zone
  year_eq : year = getUTCFullYear cursor
  month_eq : month = getUTCMonth cursor + 1
  day_eq : day = getUTCDate cursor

variable {cursor year month day : Int} {model : List OffsetSegment}

theorem Day.dateUTC_eq (h : Day zone cursor year month day model) (hour minute : Int) :
    dateUTC year (month - 1) day hour minute = cursor + hour * hourMs + minute * minuteMs := by
  have hmodern := h.modern
  have hwhole : cursor / dayMs * dayMs = cursor := Int.ediv_mul_cancel h.whole
  rw [h.year_eq, h.month_eq, h.day_eq, Int.add_sub_cancel, dateUTC_day (by unfold dayMs at *; omega), hwhole]

theorem Day.model_dayModel (h : Day zone cursor year month day model) : model = dayModel cursor zone := by
  rw [h.model_eq]
  unfold offsetModel
  rw [h.dateUTC_eq, Int.zero_mul, Int.zero_mul, Int.add_zero, Int.add_zero]

theorem time_of_day (hwhole : dayMs ∣ cursor) (hhour : hour ≤ 23) (hminute : minute ≤ 59) :
    minuteMs ∣ cursor + hour * hourMs + minute * minuteMs ∧ (cursor + hour * hourMs + minute * minuteMs) / dayMs * dayMs = cursor ∧
      getUTCHours (cursor + hour * hourMs + minute * minuteMs) = hour ∧ getUTCMinutes (cursor + hour * hourMs + minute * minuteMs) = minute := by
  unfold getUTCHours getUTCMinutes minuteMs hourMs dayMs at *
  omega

theorem Day.localEpoch_eq (h : Day zone cursor year month day model) (hhour : hour ≤ 23) (hminute : minute ≤ 59) :
    localEpoch ⟨year, month, day, hour, minute⟩ model = resolve zone (cursor + hour * hourMs + minute * minuteMs) := by
  obtain ⟨haligned, hday, -, -⟩ := time_of_day h.whole hhour hminute
  have hmodern := h.modern
  rw [resolve_eq haligned (by unfold hourMs minuteMs; omega)]
  unfold localEpoch localMinute modelOf
  rw [h.dateUTC_eq, hday, h.model_dayModel]

/-- **The bounds of the offsets** bound what a time of the day resolves to. -/
theorem Day.bounds (h : Day zone cursor year month day model) (hhour : hour ≤ 23) (hminute : minute ≤ 59)
    (he : resolve zone (cursor + hour * hourMs + minute * minuteMs) = some e) :
    cursor + hour * hourMs + minute * minuteMs - maximumOffset model ≤ e ∧
      e ≤ cursor + hour * hourMs + minute * minuteMs - minimumOffset model := by
  obtain ⟨haligned, hday, -, -⟩ := time_of_day h.whole hhour hminute
  have hmodern := h.modern
  have hwall : -dayMs ≤ cursor + hour * hourMs + minute * minuteMs := by
    unfold hourMs minuteMs
    omega
  have hshows := (resolve_spec haligned hwall).2 e he
  obtain ⟨hlow, hhigh⟩ := guess_within zone (cursor + hour * hourMs + minute * minuteMs) e
  have heq : cursor + hour * hourMs + minute * minuteMs - zone.offset e = e := by
    unfold Shows at hshows
    omega
  rw [heq] at hlow hhigh
  have hlookup := lookup_modelOf zone hwall hlow hhigh
  unfold modelOf at hlookup
  rw [hday, ← h.model_dayModel] at hlookup
  have hoffset : zone.offset e ∈ model.map OffsetSegment.offset := by
    obtain ⟨segment, hsegment, hsame⟩ := Option.map_eq_some_iff.1 hlookup
    exact List.mem_map.2 ⟨segment, List.mem_of_find?_eq_some hsegment, hsame⟩
  have hmin : minimumOffset model ≤ zone.offset e := by
    unfold minimumOffset
    cases hm : (model.map OffsetSegment.offset).min? with
    | none =>
      rw [List.min?_eq_none_iff] at hm
      rw [hm] at hoffset
      cases hoffset
    | some m => exact (List.min?_eq_some_iff.1 hm).2 _ hoffset
  have hmax : zone.offset e ≤ maximumOffset model := by
    unfold maximumOffset
    cases hm : (model.map OffsetSegment.offset).max? with
    | none =>
      rw [List.max?_eq_none_iff] at hm
      rw [hm] at hoffset
      cases hoffset
    | some m => exact (List.max?_eq_some_iff.1 hm).2 _ hoffset
  omega

/-- **The minutes of an hour.**  Where the loop ends early, one of them keeps all behind it from being better. -/
theorem Day.minuteLoop (after : ℚ) (h : Day zone cursor year month day model) {hour : Nat} (hhour : hour ≤ 23) {minutes : List Nat}
    (hrising : minutes.Pairwise (· < ·)) (hminutes : ∀ m ∈ minutes, m ≤ 59) {P : Int → Prop} {best : Option Int} (hbest : Least P best) :
    Least (fun e => P e ∨ Among zone after (timesOf cursor hour minutes) e) (minuteLoop year month day model after hour minutes best).1 ∧
      ((minuteLoop year month day model after hour minutes best).2 = true → ∃ b, (minuteLoop year month day model after hour minutes best).1 = some b ∧
        ∃ m ∈ minutes, b ≤ cursor + hour * hourMs + m * minuteMs - maximumOffset model) := by
  induction minutes generalizing P best with
  | nil =>
    refine ⟨hbest.congr (fun e => or_iff_left ?_), fun hc => by cases hc⟩
    rintro ⟨-, wall, hwall, -⟩
    cases hwall
  | cons minute minutes ih =>
    obtain ⟨hfirst, hrest⟩ := List.pairwise_cons.1 hrising
    have hminute := hminutes minute List.mem_cons_self
    have hlater : ∀ m ∈ minutes, m ≤ 59 := fun m hm => hminutes m (List.mem_cons_of_mem minute hm)
    have hwall : localMinute ⟨year, month, day, hour, minute⟩ = cursor + hour * hourMs + minute * minuteMs := h.dateUTC_eq hour minute
    have htimes : timesOf cursor hour (minute :: minutes) =
        (cursor + hour * hourMs + minute * minuteMs) :: timesOf cursor hour minutes := rfl
    rw [Cron.minuteLoop, hwall, h.localEpoch_eq hhour hminute, htimes]
    split
    · rename_i hskip
      obtain ⟨hleast, hbreak⟩ := ih hrest hlater hbest
      refine ⟨hleast.congr (fun e => or_congr_right ?_), ?_⟩
      · rw [among_cons]
        apply or_iff_right
        rintro ⟨hafter, hresolve⟩
        have hle : (e : ℚ) ≤ ((cursor + hour * hourMs + minute * minuteMs - minimumOffset model : Int) : ℚ) :=
          Int.cast_le.2 (h.bounds hhour hminute hresolve).2
        exact absurd hafter (not_lt.2 (hle.trans hskip))
      · intro hc
        obtain ⟨b, hb, m, hm, hle⟩ := hbreak hc
        exact ⟨b, hb, m, List.mem_cons_of_mem minute hm, hle⟩
    · split
      · rename_i hbetter
        obtain ⟨b, rfl, hle⟩ : ∃ b, best = some b ∧ b ≤ cursor + hour * hourMs + minute * minuteMs - maximumOffset model := by
          cases best with
          | none => cases hbetter
          | some b => exact ⟨b, rfl, of_decide_eq_true hbetter⟩
        refine ⟨hbest.bounded ?_, fun _ => ⟨b, rfl, minute, List.mem_cons_self, hle⟩⟩
        rintro e ⟨-, wall, hmem, hresolve⟩
        rw [← htimes] at hmem
        obtain ⟨m, hm, rfl⟩ := List.mem_map.1 hmem
        have hbound := (h.bounds hhour (hminutes m hm) hresolve).1
        have hge : minute ≤ m := by
          rcases List.mem_cons.1 hm with rfl | hm
          · exact Nat.le_refl _
          · exact Nat.le_of_lt (hfirst m hm)
        unfold minuteMs at *
        omega
      · obtain ⟨hleast, hbreak⟩ := ih hrest hlater (keep_least after hbest (cursor + hour * hourMs + minute * minuteMs))
        refine ⟨hleast.congr (fun e => ?_), ?_⟩
        · rw [among_cons, or_assoc]
        · intro hc
          obtain ⟨b, hb, m, hm, hle⟩ := hbreak hc
          exact ⟨b, hb, m, List.mem_cons_of_mem minute hm, hle⟩

theorem le_getLast {l : List Nat} (h : l.Pairwise (· < ·)) (hne : l ≠ []) {m : Nat} (hm : m ∈ l) : m ≤ l.getLast hne := by
  induction l with
  | nil => cases hm
  | cons x l ih =>
    obtain ⟨hx, hl⟩ := List.pairwise_cons.1 h
    by_cases hnil : l = []
    · subst hnil
      rw [List.mem_singleton] at hm
      rw [List.getLast_singleton, hm]
    · rw [List.getLast_cons hnil]
      rcases List.mem_cons.1 hm with rfl | hm
      · exact Nat.le_of_lt (hx _ (List.getLast_mem hnil))
      · exact ih hl hnil hm

/-- **The hours of a day.** -/
theorem Day.candidateLoop (after : ℚ) (h : Day zone cursor year month day model) {minutes : List Nat} (hne : minutes ≠ [])
    (hrising : minutes.Pairwise (· < ·)) (hminutes : ∀ m ∈ minutes, m ≤ 59) {hours : List Nat} (hhours : hours.Pairwise (· < ·))
    (hbound : ∀ hour ∈ hours, hour ≤ 23) {P : Int → Prop} {best : Option Int} (hbest : Least P best) :
    Least (fun e => P e ∨ Among zone after (allTimes cursor minutes hours) e)
      (candidateLoop year month day model after minutes (minutes.getLast hne) hours best) := by
  induction hours generalizing P best with
  | nil =>
    refine hbest.congr (fun e => or_iff_left ?_)
    rintro ⟨-, wall, hwall, -⟩
    cases hwall
  | cons hour hours ih =>
    obtain ⟨hfirst, hrest⟩ := List.pairwise_cons.1 hhours
    have hhour := hbound hour List.mem_cons_self
    have hlater : ∀ hour ∈ hours, hour ≤ 23 := fun hour' h' => hbound hour' (List.mem_cons_of_mem hour h')
    have htimes : allTimes cursor minutes (hour :: hours) = timesOf cursor hour minutes ++ allTimes cursor minutes hours := List.flatMap_cons
    rw [Cron.candidateLoop, h.dateUTC_eq, htimes]
    split
    · rename_i hskip
      refine (ih hrest hlater hbest).congr (fun e => or_congr_right ?_)
      rw [among_append]
      apply or_iff_right
      rintro ⟨hafter, wall, hwall, hresolve⟩
      obtain ⟨m, hm, rfl⟩ := List.mem_map.1 hwall
      have hlast := le_getLast hrising hne hm
      have hle : (e : ℚ) ≤ ((cursor + hour * hourMs + (minutes.getLast hne : Nat) * minuteMs - minimumOffset model : Int) : ℚ) := by
        apply Int.cast_le.2
        have hend := (h.bounds hhour (hminutes m hm) hresolve).2
        unfold minuteMs at *
        omega
      exact absurd hafter (not_lt.2 (hle.trans hskip))
    · obtain ⟨hleast, hbreak⟩ := h.minuteLoop after hhour hrising hminutes hbest
      split
      · rename_i hc
        obtain ⟨b, hb, m, hm, hle⟩ := hbreak hc
        rw [hb] at hleast ⊢
        refine (hleast.bounded (Q := Among zone after (allTimes cursor minutes hours)) ?_).congr (fun e => ?_)
        · rintro e ⟨-, wall, hwall, hresolve⟩
          obtain ⟨hour', hhour', hwall⟩ := List.mem_flatMap.1 hwall
          obtain ⟨m', hm', rfl⟩ := List.mem_map.1 hwall
          have hlow := (h.bounds (hlater hour' hhour') (hminutes m' hm') hresolve).1
          have hlt := hfirst hour' hhour'
          have hm59 := hminutes m hm
          unfold hourMs minuteMs at *
          omega
        · rw [among_append, or_assoc]
      · refine (ih hrest hlater hleast).congr (fun e => ?_)
        rw [among_append, or_assoc]

theorem mem_allTimes {minutes hours : List Nat} :
    wall ∈ allTimes cursor minutes hours ↔ ∃ hour ∈ hours, ∃ minute ∈ minutes, (wall : Int) = cursor + hour * hourMs + minute * minuteMs := by
  unfold allTimes timesOf
  rw [List.mem_flatMap]
  constructor
  · rintro ⟨hour, hhour, hwall⟩
    obtain ⟨minute, hminute, rfl⟩ := List.mem_map.1 hwall
    exact ⟨hour, hhour, minute, hminute, rfl⟩
  · rintro ⟨hour, hhour, minute, hminute, rfl⟩
    exact ⟨hour, hhour, List.mem_map.2 ⟨minute, hminute, rfl⟩⟩

theorem matchesDate_congr (h : wall / dayMs = wall' / dayMs) : MatchesDate parsed wall ↔ MatchesDate parsed wall' := by
  unfold MatchesDate getUTCMonth getUTCDate getUTCDay
  rw [h]

theorem mem_allTimes_iff (hwhole : dayMs ∣ cursor) (hmodern : -dayMs ≤ cursor) (hdate : MatchesDate parsed cursor) :
    wall ∈ allTimes cursor parsed.minute.values parsed.hour.values ↔ Matches parsed wall ∧ wall / dayMs * dayMs = cursor := by
  rw [mem_allTimes]
  constructor
  · rintro ⟨hour, hhour, minute, hminute, rfl⟩
    obtain ⟨haligned, hsame, hhours, hminutes⟩ := time_of_day hwhole (parsed.hour.within hour hhour).2
      (parsed.minute.within minute hminute).2
    refine ⟨⟨haligned, by unfold hourMs minuteMs; omega, ?_, ?_⟩, hsame⟩
    · refine (matchesDate_congr ?_).1 hdate
      unfold dayMs at *
      omega
    · unfold MatchesTime
      rw [hhours, hminutes, includes_iff, includes_iff]
      exact ⟨⟨hour, hhour, rfl⟩, ⟨minute, hminute, rfl⟩⟩
  · rintro ⟨⟨haligned, -, -, hhours, hminutes⟩, hsame⟩
    obtain ⟨hour, hhour, hhour'⟩ := includes_iff.1 hhours
    obtain ⟨minute, hminute, hminute'⟩ := includes_iff.1 hminutes
    refine ⟨hour, hhour, minute, hminute, ?_⟩
    rw [hhour', hminute']
    unfold getUTCHours getUTCMinutes minuteMs hourMs dayMs at *
    omega

/-- An epoch behind the cursor that a minute of the schedule resolves to, on one of `days` days. -/
def FiresWithin (parsed : ParsedCron) (zone : Zone) (after : ℚ) (first : Int) (days : Nat) (e : Int) : Prop :=
  after < e ∧ ∃ wall, Matches parsed wall ∧ first ≤ wall / dayMs ∧ wall / dayMs < first + days ∧ resolve zone wall = some e

/-- **The best fire of a day** is the least one. -/
theorem dayFire_least (parsed : ParsedCron) (zone : Zone) (after : ℚ) (hwhole : dayMs ∣ cursor) (hmodern : -dayMs ≤ cursor) :
    Least (FiresWithin parsed zone after (cursor / dayMs) 1)
      (dayFire parsed zone after (getUTCFullYear cursor) (getUTCMonth cursor + 1) (getUTCDate cursor)) := by
  unfold dayFire
  by_cases hdate : MatchesDate parsed cursor
  · rw [if_pos ((dayMatches_iff hmodern).2 hdate)]
    have hday : Day zone cursor (getUTCFullYear cursor) (getUTCMonth cursor + 1) (getUTCDate cursor)
        (offsetModel (getUTCFullYear cursor) (getUTCMonth cursor + 1) (getUTCDate cursor) zone) := ⟨hwhole, hmodern, rfl, rfl, rfl, rfl⟩
    refine (hday.candidateLoop after parsed.minute.nonempty parsed.minute.rising (fun m hm => (parsed.minute.within m hm).2)
      parsed.hour.rising (fun hour hhour => (parsed.hour.within hour hhour).2) least_nothing).congr (fun e => ?_)
    rw [false_or]
    constructor
    · rintro ⟨hafter, wall, hmatches, hlow, hhigh, hresolve⟩
      refine ⟨hafter, wall, (mem_allTimes_iff hwhole hmodern hdate).2 ⟨hmatches, ?_⟩, hresolve⟩
      unfold dayMs at *
      omega
    · rintro ⟨hafter, wall, hwall, hresolve⟩
      obtain ⟨hmatches, hsame⟩ := (mem_allTimes_iff hwhole hmodern hdate).1 hwall
      refine ⟨hafter, wall, hmatches, ?_, ?_, hresolve⟩
      · unfold dayMs at *
        omega
      · unfold dayMs at *
        omega
  · rw [if_neg (fun h => hdate ((dayMatches_iff hmodern).1 h))]
    rintro e ⟨-, wall, hmatches, hlow, hhigh, -⟩
    refine hdate ((matchesDate_congr ?_).1 hmatches.date)
    omega

theorem Shows.lt {e' : Int} (h : Shows zone wall e) (h' : Shows zone wall' e') (hlt : wall / dayMs < wall' / dayMs) :
    e < e' := by
  by_contra hle
  have hdates := zone.dates e' e (Int.not_lt.1 hle)
  unfold Shows at h h'
  rw [h, h'] at hdates
  omega

theorem resolve_shows (h : Matches parsed wall) (he : resolve zone wall = some e) :
    Shows zone wall e := (resolve_spec h.minute h.modern).2 e he

/-- The result of a search: the least epoch that meets `P`, or the error where there is none. -/
def Finds (P : Int → Prop) : Except String Int → Prop
  | .ok e => P e ∧ ∀ e', P e' → e ≤ e'
  | .error message => message = "cron expression has no fire time within five years" ∧ ∀ e, ¬P e

/-- **The search over the days** finds the least fire: no later day has an earlier one. -/
theorem searchFrom_finds (parsed : ParsedCron) (zone : Zone) (after : ℚ) (days : Nat) (hwhole : dayMs ∣ cursor) (hmodern : -dayMs ≤ cursor) :
    Finds (FiresWithin parsed zone after (cursor / dayMs) days) (searchFrom parsed zone after days cursor) := by
  induction days generalizing cursor with
  | zero =>
    refine ⟨rfl, ?_⟩
    rintro e ⟨-, wall, -, hlow, hhigh, -⟩
    omega
  | succ days ih =>
    have hday := dayFire_least parsed zone after hwhole hmodern
    have hnext : setUTCDate cursor (getUTCDate cursor + 1) = cursor + dayMs := by
      rw [setUTCDate_add, Int.one_mul]
    have hdiv : (cursor + dayMs) / dayMs = cursor / dayMs + 1 := Int.add_ediv_of_dvd_right (Int.dvd_refl _)
    have hwhole' : dayMs ∣ cursor + dayMs := Int.dvd_add hwhole (Int.dvd_refl _)
    have hrest := ih hwhole' (by unfold dayMs at *; omega)
    rw [hdiv] at hrest
    rw [searchFrom, hnext]
    cases hfire : dayFire parsed zone after (getUTCFullYear cursor) (getUTCMonth cursor + 1) (getUTCDate cursor) with
    | none =>
      rw [hfire] at hday
      have hsame : ∀ e, FiresWithin parsed zone after (cursor / dayMs + 1) days e ↔
          FiresWithin parsed zone after (cursor / dayMs) (days + 1) e := by
        intro e
        constructor
        · rintro ⟨hafter, wall, hmatches, hlow, hhigh, hresolve⟩
          exact ⟨hafter, wall, hmatches, by omega, by omega, hresolve⟩
        · rintro ⟨hafter, wall, hmatches, hlow, hhigh, hresolve⟩
          refine ⟨hafter, wall, hmatches, ?_, by omega, hresolve⟩
          by_contra hfirst
          exact hday e ⟨hafter, wall, hmatches, hlow, by omega, hresolve⟩
      simp only
      cases hsearch : searchFrom parsed zone after days (cursor + dayMs) with
      | ok e =>
        rw [hsearch] at hrest
        exact ⟨(hsame e).1 hrest.1, fun e' he' => hrest.2 e' ((hsame e').2 he')⟩
      | error message =>
        rw [hsearch] at hrest
        exact ⟨hrest.1, fun e he => hrest.2 e ((hsame e).2 he)⟩
    | some best =>
      rw [hfire] at hday
      obtain ⟨⟨hafter, wall, hmatches, hlow, hhigh, hresolve⟩, hleast⟩ := hday
      refine ⟨⟨hafter, wall, hmatches, hlow, by omega, hresolve⟩, ?_⟩
      rintro e ⟨hafter', wall', hmatches', hlow', hhigh', hresolve'⟩
      by_cases hfirst : wall' / dayMs < cursor / dayMs + 1
      · exact hleast e ⟨hafter', wall', hmatches', hlow', by omega, hresolve'⟩
      · exact Int.le_of_lt ((resolve_shows hmatches hresolve).lt (resolve_shows hmatches' hresolve') (by omega))

/-! ## The next fire -/

theorem nextCronFire_eq (parsed : ParsedCron) (zone : Zone) {after : ℚ} (hafter : 0 ≤ after) :
    -dayMs ≤ (⌊after⌋ + zone.offset ⌊after⌋) / dayMs * dayMs ∧ nextCronFire parsed zone (some after) =
      searchFrom parsed zone after searchDays ((⌊after⌋ + zone.offset ⌊after⌋) / dayMs * dayMs) := by
  have hfloor : 0 ≤ ⌊after⌋ := Int.floor_nonneg.2 hafter
  have hbelow := zone.below ⌊after⌋
  refine ⟨by unfold dayMs at *; omega, ?_⟩
  unfold nextCronFire
  simp only
  rw [if_neg (not_lt.2 hafter)]
  unfold localParts partsOf
  simp only [Int.add_sub_cancel]
  rw [dateUTC_day (by unfold dayMs at *; omega), Int.zero_mul, Int.zero_mul, Int.add_zero, Int.add_zero]

/-- **The next fire** is the least epoch behind the cursor among those that the schedule's minutes resolve to. -/
theorem nextCronFire_finds (parsed : ParsedCron) (zone : Zone) {after : ℚ} (hafter : 0 ≤ after) :
    Finds (Fires parsed zone after) (nextCronFire parsed zone (some after)) := by
  obtain ⟨hmodern, heq⟩ := nextCronFire_eq parsed zone hafter
  have hfinds := searchFrom_finds parsed zone after searchDays (Int.dvd_mul_left _ _) hmodern
  rw [Int.mul_ediv_cancel _ (by decide)] at hfinds
  have hsame : ∀ e, Fires parsed zone after e ↔
      FiresWithin parsed zone after ((⌊after⌋ + zone.offset ⌊after⌋) / dayMs) searchDays e := by
    intro e
    constructor
    · rintro ⟨hlt, wall, hmatches, hhigh, hresolve⟩
      -- an earlier local day has no epoch behind the cursor
      have hdates := zone.dates ⌊after⌋ e (Int.le_of_lt (Int.floor_lt.2 hlt))
      have hshows : e + zone.offset e = wall := resolve_shows hmatches hresolve
      rw [hshows] at hdates
      exact ⟨hlt, wall, hmatches, hdates, hhigh, hresolve⟩
    · rintro ⟨hlt, wall, hmatches, -, hhigh, hresolve⟩
      exact ⟨hlt, wall, hmatches, hhigh, hresolve⟩
  rw [heq]
  cases hsearch : searchFrom parsed zone after searchDays ((⌊after⌋ + zone.offset ⌊after⌋) / dayMs * dayMs) with
  | ok e =>
    rw [hsearch] at hfinds
    exact ⟨(hsame e).2 hfinds.1, fun e' he' => hfinds.2 e' ((hsame e').1 he')⟩
  | error message =>
    rw [hsearch] at hfinds
    exact ⟨hfinds.1, fun e he => hfinds.2 e ((hsame e).1 he)⟩

theorem nextCronFire_invalid (parsed : ParsedCron) (zone : Zone) {after : Option ℚ} (h : ∀ a, after = some a → a < 0) :
    nextCronFire parsed zone after = .error "cron cursor must be a non-negative epoch" := by
  cases after with
  | none => rfl
  | some a => exact if_pos (h a rfl)

/-- The first `n` fires, each the next one behind the one before. -/
def fireTimes (parsed : ParsedCron) (zone : Zone) : Nat → Option ℚ → List Int
  | 0, _ => []
  | n + 1, after =>
    match nextCronFire parsed zone after with
    | .error _ => []
    | .ok e => e :: fireTimes parsed zone n (some (e : ℚ))

theorem nextCronFire_ok {cursor : Option ℚ} (h : nextCronFire parsed zone cursor = .ok e) :
    ∃ after : ℚ, cursor = some after ∧ 0 ≤ after ∧ after < e ∧ resolve zone (e + zone.offset e) = some e := by
  cases cursor with
  | none => cases h
  | some after =>
    have hafter : 0 ≤ after := by
      by_contra hneg
      rw [nextCronFire_invalid parsed zone (fun a ha => by cases ha; exact not_le.1 hneg)] at h
      cases h
    have hfinds := nextCronFire_finds parsed zone hafter
    rw [h] at hfinds
    obtain ⟨⟨hlt, wall, hmatches, -, hresolve⟩, -⟩ := hfinds
    have hshows : e + zone.offset e = wall := resolve_shows hmatches hresolve
    refine ⟨after, rfl, hafter, hlt, ?_⟩
    rw [hshows]
    exact hresolve

theorem mem_fireTimes (n : Nat) {cursor : Option ℚ} (h : e ∈ fireTimes parsed zone n cursor) :
    resolve zone (e + zone.offset e) = some e ∧ ∀ after, cursor = some after → after < e := by
  induction n generalizing cursor with
  | zero => cases h
  | succ n ih =>
    unfold fireTimes at h
    cases hnext : nextCronFire parsed zone cursor with
    | error message =>
      rw [hnext] at h
      cases h
    | ok first =>
      rw [hnext] at h
      obtain ⟨after, rfl, -, hlt, hresolve⟩ := nextCronFire_ok hnext
      rcases List.mem_cons.1 h with rfl | h
      · refine ⟨hresolve, fun a ha => ?_⟩
        cases ha
        exact hlt
      · obtain ⟨hresolve', hlt'⟩ := ih h
        refine ⟨hresolve', fun a ha => ?_⟩
        cases ha
        exact hlt.trans (hlt' _ rfl)

/-- **The fires rise**, and no two are of one local minute. -/
theorem fireTimes_rise (parsed : ParsedCron) (zone : Zone) (n : Nat) (cursor : Option ℚ) :
    (fireTimes parsed zone n cursor).Pairwise (fun e e' => e < e' ∧ e + zone.offset e ≠ e' + zone.offset e') := by
  induction n generalizing cursor with
  | zero => exact List.Pairwise.nil
  | succ n ih =>
    unfold fireTimes
    cases hnext : nextCronFire parsed zone cursor with
    | error message => exact List.Pairwise.nil
    | ok e =>
      obtain ⟨-, -, -, -, hresolve⟩ := nextCronFire_ok hnext
      refine List.pairwise_cons.2 ⟨?_, ih (some (e : ℚ))⟩
      intro e' he'
      obtain ⟨hresolve', hlt⟩ := mem_fireTimes n he'
      have hrise : e < e' := Int.cast_lt.1 (hlt (e : ℚ) rfl)
      refine ⟨hrise, fun hsame => ?_⟩
      rw [hsame, hresolve'] at hresolve
      cases hresolve
      exact absurd hrise (Int.lt_irrefl _)

/-- **The next fire is exact**: the least epoch behind the cursor that a minute of the schedule resolves to, or an error
where there is none within the horizon. -/
theorem nextCronFire_exact (parsed : ParsedCron) (zone : Zone) : (∀ wall, minuteMs ∣ wall → -dayMs ≤ wall →
      (resolve zone wall = none ↔ Skips zone wall) ∧ ∀ e, resolve zone wall = some e → Shows zone wall e) ∧
    (∀ after : ℚ, 0 ≤ after → Finds (Fires parsed zone after) (nextCronFire parsed zone (some after))) ∧
    (∀ cursor : Option ℚ, (∀ after, cursor = some after → after < 0) →
      nextCronFire parsed zone cursor = .error "cron cursor must be a non-negative epoch") ∧
    ∀ n cursor, (fireTimes parsed zone n cursor).Pairwise (fun e e' => e < e' ∧ e + zone.offset e ≠ e' + zone.offset e') ∧
      ∀ e ∈ fireTimes parsed zone n cursor, ∀ after, cursor = some after → after < e := by
  refine ⟨fun wall haligned hmodern => resolve_spec haligned hmodern, fun after hafter => nextCronFire_finds _ _ hafter,
    fun cursor h => nextCronFire_invalid parsed zone h, fun n cursor => ⟨fireTimes_rise parsed zone n cursor, ?_⟩⟩
  intro e he
  exact (mem_fireTimes n he).2

def fixedZone (offset : Int) (haligned : minuteMs ∣ offset) (hbelow : -dayMs < offset ∧ offset < dayMs) : Zone where
  offset _ := offset
  aligned _ := haligned
  below _ := hbelow
  regimes _ := ⟨0, ⟨0, rfl⟩, fun _ _ _ => rfl, fun _ _ _ => rfl⟩
  dates e e' h := Int.ediv_le_ediv (by decide) (Int.add_le_add_right h offset)

def utc : Zone := fixedZone 0 ⟨0, rfl⟩ (by decide)

def parsesTo (expression : String) (p : ParsedCron → Bool) : Bool :=
  match parseCron expression with
  | .error _ => false
  | .ok parsed => p parsed

theorem exists_of_parsesTo (expression : String) {p : ParsedCron → Bool} (h : parsesTo expression p = true) :
    ∃ parsed, parseCron expression = .ok parsed ∧ p parsed = true := by
  unfold parsesTo at h
  split at h
  · cases h
  · rename_i parsed hparsed
    exact ⟨parsed, hparsed, h⟩

theorem no_thirtieth (hmonth : parsed.month.values = [2]) (hday : parsed.dayOfMonth.values = [30])
    (hweek : parsed.dayOfWeek.wildcard = true) (wall : Int) : ¬Matches parsed wall := by
  intro h
  obtain ⟨hin, hdate⟩ := h.date
  rw [hmonth, includes_iff] at hin
  obtain ⟨m, hm, hm'⟩ := hin
  rw [List.mem_singleton] at hm
  subst hm
  rw [if_pos (.inr hweek), hday, includes_iff] at hdate
  obtain ⟨d, hd, hd'⟩ := hdate.1
  rw [List.mem_singleton] at hd
  subst hd
  have hfebruary : monthFromDay (wall / dayMs) = 1 := by
    unfold getUTCMonth at hm'
    omega
  have hle := dateFromDay_le (wall / dayMs)
  rw [hfebruary] at hle
  have hlength : monthLength (isLeap (yearFromDay (wall / dayMs))) 1 ≤ 29 := by
    cases isLeap (yearFromDay (wall / dayMs)) <;> decide
  unfold getUTCDate at hd'
  omega

theorem nextCronFire_throws : (∃ parsed, parseCron "0 0 30 2 *" = .ok parsed ∧
      nextCronFire parsed utc (some 0) = .error "cron expression has no fire time within five years") ∧
    ∃ parsed, parseCron "* * * * *" = .ok parsed ∧ Fires parsed utc (-1) 0 ∧
      nextCronFire parsed utc (some (-1)) = .error "cron cursor must be a non-negative epoch" := by
  constructor
  · obtain ⟨parsed, hparsed, h⟩ := exists_of_parsesTo "0 0 30 2 *"
      (p := fun parsed => decide (parsed.month.values = [2]) && decide (parsed.dayOfMonth.values = [30]) &&
        parsed.dayOfWeek.wildcard) (by decide +kernel)
    rw [Bool.and_eq_true, Bool.and_eq_true, decide_eq_true_eq, decide_eq_true_eq] at h
    have hfinds := nextCronFire_finds parsed utc (le_refl (0 : ℚ))
    refine ⟨parsed, hparsed, ?_⟩
    cases hnext : nextCronFire parsed utc (some 0) with
    | ok e =>
      rw [hnext] at hfinds
      obtain ⟨⟨-, wall, hmatches, -⟩, -⟩ := hfinds
      exact absurd hmatches (no_thirtieth h.1.1 h.1.2 h.2 wall)
    | error message =>
      rw [hnext] at hfinds
      rw [hfinds.1]
  · obtain ⟨parsed, hparsed, h⟩ := exists_of_parsesTo "* * * * *"
      (p := fun parsed => includes parsed.month.values (getUTCMonth 0 + 1) && dayMatches parsed (getUTCFullYear 0) (getUTCMonth 0 + 1) (getUTCDate 0) &&
        (includes parsed.hour.values (getUTCHours 0) && includes parsed.minute.values (getUTCMinutes 0))) (by decide +kernel)
    rw [Bool.and_eq_true, Bool.and_eq_true (includes parsed.hour.values _)] at h
    have hmatches : Matches parsed 0 := ⟨⟨0, rfl⟩, by decide, (dayMatches_iff (by decide)).1 h.1, h.2⟩
    refine ⟨parsed, hparsed, ⟨?_, 0, hmatches, ?_, ?_⟩, ?_⟩
    · decide +kernel
    · decide +kernel
    · decide +kernel
    · exact nextCronFire_invalid parsed utc (fun a ha => by cases ha; decide +kernel)

end Wollipog.Cron

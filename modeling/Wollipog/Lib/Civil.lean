import Mathlib.Data.Int.Basic
/-!
# Civil — days, years and months of the proleptic Gregorian calendar

A day has a year, a month from 0 to 11 and a date from 1 on, and is the day made of them; time values are milliseconds
from the start of day 0.
-/
namespace Civil

def dayFromYear (y : Int) : Int := 365 * (y - 1970) + (y - 1969) / 4 - (y - 1901) / 100 + (y - 1601) / 400

def isLeap (y : Int) : Bool := decide (y % 4 = 0) && (!decide (y % 100 = 0) || decide (y % 400 = 0))

def yearGuess (d : Int) : Int := 1970 + 400 * d / 146097

def yearFromDay (d : Int) : Int :=
  if dayFromYear (yearGuess d + 1) ≤ d then yearGuess d + 1 else if dayFromYear (yearGuess d) ≤ d then yearGuess d else yearGuess d - 1

def yearLength (leap : Bool) : Int := if leap then 366 else 365

theorem dayFromYear_succ (y : Int) : dayFromYear (y + 1) = dayFromYear y + yearLength (isLeap y) := by
  unfold dayFromYear yearLength isLeap
  by_cases h4 : y % 4 = 0
  · by_cases h100 : y % 100 = 0
    · by_cases h400 : y % 400 = 0
      · simp only [h4, h100, h400, decide_true, Bool.not_true, Bool.false_or, Bool.and_true, if_true]
        omega
      · simp only [h4, h100, h400, decide_true, decide_false, Bool.not_true, Bool.or_false, Bool.and_false, Bool.false_eq_true, if_false]
        omega
    · simp only [h4, h100, decide_true, decide_false, Bool.not_false, Bool.true_or, Bool.and_true, if_true]
      omega
  · simp only [h4, decide_false, Bool.false_and, Bool.false_eq_true, if_false]
    omega

theorem dayFromYear_mono {y z : Int} (h : y ≤ z) : dayFromYear y ≤ dayFromYear z := by
  unfold dayFromYear
  omega

theorem yearFromDay_le (d : Int) : dayFromYear (yearFromDay d) ≤ d := by
  unfold yearFromDay
  split
  · assumption
  · split
    · assumption
    · unfold dayFromYear yearGuess at *
      omega

theorem lt_yearFromDay (d : Int) : d < dayFromYear (yearFromDay d + 1) := by
  unfold yearFromDay
  split
  · unfold dayFromYear yearGuess at *
    omega
  · split
    · omega
    · rename_i h
      rw [Int.sub_add_cancel]
      omega

/-! ## Months and dates -/

/-- The days of a year before its month `m`, for months from 0 on. -/
def monthStart (leap : Bool) : Nat → Int
  | 0 => 0
  | 1 => 31
  | 2 => 59 + (if leap then 1 else 0)
  | 3 => 90 + (if leap then 1 else 0)
  | 4 => 120 + (if leap then 1 else 0)
  | 5 => 151 + (if leap then 1 else 0)
  | 6 => 181 + (if leap then 1 else 0)
  | 7 => 212 + (if leap then 1 else 0)
  | 8 => 243 + (if leap then 1 else 0)
  | 9 => 273 + (if leap then 1 else 0)
  | 10 => 304 + (if leap then 1 else 0)
  | 11 => 334 + (if leap then 1 else 0)
  | _ => 365 + (if leap then 1 else 0)

/-- The month of the day `r` of a year, among the months up to `m`. -/
def monthUpTo (leap : Bool) (r : Int) : Nat → Nat
  | 0 => 0
  | m + 1 => if monthStart leap (m + 1) ≤ r then m + 1 else monthUpTo leap r m

def monthFromDay (d : Int) : Nat := monthUpTo (isLeap (yearFromDay d)) (d - dayFromYear (yearFromDay d)) 11

def dateFromDay (d : Int) : Int :=
  d - dayFromYear (yearFromDay d) - monthStart (isLeap (yearFromDay d)) (monthFromDay d) + 1

def weekDay (d : Int) : Int := (d + 4) % 7

def makeDay (year month date : Int) : Int :=
  dayFromYear (year + month / 12) + monthStart (isLeap (year + month / 12)) (month % 12).toNat + date - 1

theorem monthUpTo_le (leap : Bool) (r : Int) : ∀ m, monthUpTo leap r m ≤ m
  | 0 => Nat.le_refl 0
  | m + 1 => by
    unfold monthUpTo
    split
    · exact Nat.le_refl _
    · exact Nat.le_succ_of_le (monthUpTo_le leap r m)

theorem monthFromDay_lt (d : Int) : monthFromDay d < 12 := Nat.lt_succ_of_le (monthUpTo_le _ _ 11)

theorem monthStart_monthUpTo {leap : Bool} {r : Int} (h : 0 ≤ r) : ∀ m, monthStart leap (monthUpTo leap r m) ≤ r
  | 0 => h
  | m + 1 => by
    unfold monthUpTo
    split
    · assumption
    · exact monthStart_monthUpTo h m

theorem lt_monthStart_succ {leap : Bool} {r : Int} :
    ∀ m, r < monthStart leap (m + 1) → r < monthStart leap (monthUpTo leap r m + 1)
  | 0, h => h
  | m + 1, h => by
    unfold monthUpTo
    split
    · exact h
    · rename_i hlt
      exact lt_monthStart_succ m (Int.not_le.1 hlt)

def monthLength (leap : Bool) (m : Nat) : Int := monthStart leap (m + 1) - monthStart leap m

theorem monthLength_le (leap : Bool) : ∀ m, monthLength leap m ≤ 31
  | 0 | 1 | 2 | 3 | 4 | 5 | 6 | 7 | 8 | 9 | 10 | 11 => by
    cases leap <;> decide
  | m + 12 => by
    have hzero : monthLength leap (m + 12) = 0 := Int.sub_self _
    omega

theorem dateFromDay_pos (d : Int) : 1 ≤ dateFromDay d := by
  have hle := yearFromDay_le d
  have hstart : monthStart (isLeap (yearFromDay d)) (monthFromDay d) ≤ d - dayFromYear (yearFromDay d) :=
    monthStart_monthUpTo (by omega) 11
  unfold dateFromDay
  omega

theorem dateFromDay_le (d : Int) : dateFromDay d ≤ monthLength (isLeap (yearFromDay d)) (monthFromDay d) := by
  have hlt := lt_yearFromDay d
  rw [dayFromYear_succ] at hlt
  have hyear : yearLength (isLeap (yearFromDay d)) = monthStart (isLeap (yearFromDay d)) (11 + 1) := by
    cases isLeap (yearFromDay d) <;> rfl
  have hnext : d - dayFromYear (yearFromDay d) < monthStart (isLeap (yearFromDay d)) (monthFromDay d + 1) :=
    lt_monthStart_succ 11 (by omega)
  unfold dateFromDay monthLength
  omega

/-- **A day is the day of its date.** -/
theorem makeDay_fields (d : Int) : makeDay (yearFromDay d) (monthFromDay d) (dateFromDay d) = d := by
  have hmonth := monthFromDay_lt d
  have hdiv : (monthFromDay d : Int) / 12 = 0 := by omega
  have hmod : ((monthFromDay d : Int) % 12).toNat = monthFromDay d := by omega
  unfold makeDay
  rw [hdiv, hmod, Int.add_zero]
  unfold dateFromDay
  omega

theorem makeDay_add (year month date n : Int) : makeDay year month (date + n) = makeDay year month date + n := by
  unfold makeDay
  omega

/-! ## Time values -/

def minuteMs : Int := 60000
def hourMs : Int := 3600000
def dayMs : Int := 86400000

def getUTCFullYear (t : Int) : Int := yearFromDay (t / dayMs)

def getUTCMonth (t : Int) : Int := monthFromDay (t / dayMs)

def getUTCDate (t : Int) : Int := dateFromDay (t / dayMs)

def getUTCDay (t : Int) : Int := weekDay (t / dayMs)

def getUTCHours (t : Int) : Int := t % dayMs / hourMs

def getUTCMinutes (t : Int) : Int := t % hourMs / minuteMs

/-- `Date.UTC`; a year below 100 is one of the twentieth century. -/
def dateUTC (year month date hour minute : Int) : Int :=
  makeDay (if 0 ≤ year ∧ year ≤ 99 then 1900 + year else year) month date * dayMs + hour * hourMs + minute * minuteMs

/-- `setUTCDate`, and the time value it leaves. -/
def setUTCDate (t date : Int) : Int := makeDay (getUTCFullYear t) (getUTCMonth t) date * dayMs + t % dayMs

theorem setUTCDate_add (t n : Int) : setUTCDate t (getUTCDate t + n) = t + n * dayMs := by
  unfold setUTCDate getUTCDate getUTCFullYear getUTCMonth
  rw [makeDay_add, makeDay_fields]
  unfold dayMs
  omega

theorem yearFromDay_modern {d : Int} (h : -365 ≤ d) : 1969 ≤ yearFromDay d := by
  by_contra hlt
  have hyear := dayFromYear_mono (y := yearFromDay d + 1) (z := 1969) (by omega)
  have hd := lt_yearFromDay d
  have hfirst : dayFromYear 1969 = -365 := rfl
  omega

theorem dateUTC_day {t : Int} (h : -365 * dayMs ≤ t) (hour minute : Int) :
    dateUTC (getUTCFullYear t) (getUTCMonth t) (getUTCDate t) hour minute = t / dayMs * dayMs + hour * hourMs + minute * minuteMs := by
  have hmodern : 1969 ≤ getUTCFullYear t := yearFromDay_modern (by unfold dayMs at h ⊢; omega)
  have hyear : ¬(0 ≤ getUTCFullYear t ∧ getUTCFullYear t ≤ 99) := by omega
  unfold dateUTC
  rw [if_neg hyear]
  unfold getUTCFullYear getUTCMonth getUTCDate
  rw [makeDay_fields]

/-- **The minute of a time** from 1969 on, made of its fields. -/
theorem dateUTC_fields {t : Int} (h : -365 * dayMs ≤ t) :
    dateUTC (getUTCFullYear t) (getUTCMonth t) (getUTCDate t) (getUTCHours t) (getUTCMinutes t) = t / minuteMs * minuteMs := by
  rw [dateUTC_day h]
  unfold getUTCHours getUTCMinutes minuteMs hourMs dayMs
  omega

end Civil

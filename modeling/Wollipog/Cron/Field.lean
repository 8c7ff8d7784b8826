import Mathlib.Data.List.Sort
import Wollipog.Lib.Js
/-!
# Field — the fields of a cron expression

Each field of a schedule carries what the search relies on: its values rise, lie in the field's range and are not none, and
the wildcard flag says that they are all of the range.
-/
namespace Wollipog.Cron

def maxExpressionLength : Nat := 128

/-- A field whose values lie between `min` and `max`. -/
structure CronField (min max : Nat) where
  values : List Nat
  wildcard : Bool
  rising : values.Pairwise (· < ·)
  nonempty : values ≠ []
  within : ∀ v ∈ values, min ≤ v ∧ v ≤ max
  whole : wildcard = true → ∀ v, min ≤ v → v ≤ max → v ∈ values

structure ParsedCron where
  minute : CronField 0 59
  hour : CronField 0 23
  dayOfMonth : CronField 1 31
  month : CronField 1 12
  dayOfWeek : CronField 0 6

def decimal (raw : List Char) : Nat := raw.foldl (fun n c => 10 * n + (c.toNat - '0'.toNat)) 0

def highest (max : Nat) (sundayAlias : Bool) : Nat := if sundayAlias then 7 else max

def parseNumber (raw : List Char) (min max : Nat) (sundayAlias : Bool) : Except String Nat :=
  if raw.isEmpty || !raw.all Char.isDigit then .error ("invalid cron value '" ++ String.ofList raw ++ "'")
  else if decimal raw < min ∨ highest max sundayAlias < decimal raw then
    .error ("cron value '" ++ String.ofList raw ++ "' must be between " ++ toString min ++ " and " ++
      toString (highest max sundayAlias))
  else .ok (if sundayAlias && decimal raw == 7 then 0 else decimal raw)

/-- The first and the last value of a part of a field, `stepped` when the part has a step. -/
def parseBase (base : List Char) (stepped : Bool) (min max : Nat) (sundayAlias : Bool) : Except String (Nat × Nat) :=
  if base = ['*'] then .ok (min, max)
  else if base.contains '-' then
    match Js.splitAt (· == '-') base with
    | [first, last] => do
      let start ← parseNumber first min (highest max sundayAlias) false
      let end_ ← parseNumber last min (highest max sundayAlias) false
      if end_ < start then .error ("cron range '" ++ String.ofList base ++ "' must be ascending") else .ok (start, end_)
    | _ => .error ("invalid cron range '" ++ String.ofList base ++ "'")
  else do
    let start ← parseNumber base min max sundayAlias
    .ok (start, if stepped then max else start)

/-- The values of a part; `7` is kept until the range is written out. -/
def stepValues (start end_ step : Nat) (sundayAlias : Bool) : List Nat :=
  (List.range' start ((end_ + step - start) / step) step).map (fun value => if sundayAlias && value == 7 then 0 else value)

def parsePart (raw part : List Char) (min max : Nat) (sundayAlias : Bool) : Except String (List Nat) :=
  if part.isEmpty then .error "cron fields cannot contain empty list entries"
  else match Js.splitAt (· == '/') part with
    | [base] =>
      if base.isEmpty then .error ("invalid cron field '" ++ String.ofList raw ++ "'")
      else do
        let bounds ← parseBase base false min max sundayAlias
        .ok (stepValues bounds.1 bounds.2 1 sundayAlias)
    | [base, stepRaw] =>
      if base.isEmpty then .error ("invalid cron field '" ++ String.ofList raw ++ "'")
      else do
        let step ← parseNumber stepRaw 1 (max - min + 1) false
        let bounds ← parseBase base true min max sundayAlias
        .ok (stepValues bounds.1 bounds.2 step sundayAlias)
    | _ => .error ("invalid cron field '" ++ String.ofList raw ++ "'")

/-- `Set.add` -/
def addValue (values : List Nat) (v : Nat) : List Nat := if v ∈ values then values else values ++ [v]

def parseParts (raw : List Char) (min max : Nat) (sundayAlias : Bool) : List (List Char) → List Nat → Except String (List Nat)
  | [], values => .ok values
  | part :: parts, values => do
    let selected ← parsePart raw part min max sundayAlias
    parseParts raw min max sundayAlias parts (selected.foldl addValue values)

def isWildcard (sorted : List Nat) (min max : Nat) : Bool :=
  decide (sorted.length = max - min + 1) && sorted.zipIdx.all (fun p => p.1 == min + p.2)

/-! ## What a field selects -/

def Range (min max : Nat) (sundayAlias : Bool) : Prop := min ≤ max ∧ (sundayAlias = true → min = 0 ∧ max = 6)

instance (min max : Nat) (sundayAlias : Bool) : Decidable (Range min max sundayAlias) := inferInstanceAs (Decidable (_ ∧ _))

variable {raw part base : List Char} {min max v : Nat} {sundayAlias stepped : Bool}

theorem except_bind_eq_ok {ε α β : Type} {x : Except ε α} {f : α → Except ε β} {b : β} (h : (x >>= f) = .ok b) :
    ∃ a, x = .ok a ∧ f a = .ok b := by
  cases x with
  | error e => cases h
  | ok a => exact ⟨a, rfl, h⟩

theorem parseNumber_bounds (h : parseNumber raw min max sundayAlias = .ok v) (hrange : Range min max sundayAlias) :
    min ≤ v ∧ v ≤ max := by
  unfold parseNumber at h
  split at h
  · cases h
  · split at h
    · cases h
    · rename_i hin
      rw [not_or, Nat.not_lt, Nat.not_lt] at hin
      cases h
      cases sundayAlias with
      | false => exact hin
      | true =>
        obtain ⟨rfl, rfl⟩ := hrange.2 rfl
        by_cases h7 : decimal raw = 7
        · rw [if_pos (by rw [h7]; rfl)]
          omega
        · rw [if_neg (by simpa using h7)]
          have hle : decimal raw ≤ 7 := hin.2
          omega

theorem parseBase_bounds {bounds : Nat × Nat} (h : parseBase base stepped min max sundayAlias = .ok bounds)
    (hrange : Range min max sundayAlias) :
    min ≤ bounds.1 ∧ bounds.1 ≤ bounds.2 ∧ bounds.2 ≤ highest max sundayAlias := by
  have hmax : max ≤ highest max sundayAlias := by
    cases sundayAlias with
    | false => exact Nat.le_refl max
    | true =>
      obtain ⟨-, rfl⟩ := hrange.2 rfl
      decide
  unfold parseBase at h
  split at h
  · cases h
    exact ⟨Nat.le_refl _, hrange.1, hmax⟩
  · split at h
    · split at h
      · obtain ⟨start, hstart, h⟩ := except_bind_eq_ok h
        obtain ⟨end_, hend, h⟩ := except_bind_eq_ok h
        have hwide : Range min (highest max sundayAlias) false := ⟨Nat.le_trans hrange.1 hmax, fun hf => by cases hf⟩
        have hlow := parseNumber_bounds hstart hwide
        have hhigh := parseNumber_bounds hend hwide
        split at h
        · cases h
        · cases h
          exact ⟨hlow.1, by omega, hhigh.2⟩
      · cases h
    · obtain ⟨start, hstart, h⟩ := except_bind_eq_ok h
      have hbounds := parseNumber_bounds hstart hrange
      cases h
      refine ⟨hbounds.1, ?_, ?_⟩
      · cases stepped with
        | false => exact Nat.le_refl _
        | true => exact hbounds.2
      · cases stepped with
        | false => exact Nat.le_trans hbounds.2 hmax
        | true => exact hmax

theorem stepValues_bounds {start end_ step : Nat} (hrange : Range min max sundayAlias) (hstep : 1 ≤ step) (hmin : min ≤ start)
    (hle : start ≤ end_) (hmax : end_ ≤ highest max sundayAlias) :
    stepValues start end_ step sundayAlias ≠ [] ∧ ∀ v ∈ stepValues start end_ step sundayAlias, min ≤ v ∧ v ≤ max := by
  unfold stepValues
  constructor
  · have hcount : 0 < (end_ + step - start) / step := Nat.div_pos (by omega) hstep
    intro hnil
    have hlength := congrArg List.length hnil
    rw [List.length_map, List.length_range', List.length_nil] at hlength
    omega
  · intro v hv
    obtain ⟨value, hvalue, rfl⟩ := List.mem_map.1 hv
    obtain ⟨i, hi, rfl⟩ := List.mem_range'.1 hvalue
    have hupper : start + step * i ≤ end_ := by
      have hmul : step * (i + 1) ≤ end_ + step - start :=
        Nat.le_trans (Nat.mul_le_mul_left step hi) (Nat.mul_div_le _ _)
      rw [Nat.mul_add, Nat.mul_one] at hmul
      omega
    cases sundayAlias with
    | false =>
      have hmax' : end_ ≤ max := hmax
      rw [Bool.false_and, if_neg Bool.false_ne_true]
      omega
    | true =>
      obtain ⟨rfl, rfl⟩ := hrange.2 rfl
      have hmax' : end_ ≤ 7 := hmax
      by_cases h7 : start + step * i = 7
      · rw [if_pos (by rw [h7]; rfl)]
        omega
      · rw [if_neg (by simpa using h7)]
        omega

variable {values : List Nat}

theorem parsePart_bounds (h : parsePart raw part min max sundayAlias = .ok values)
    (hrange : Range min max sundayAlias) : values ≠ [] ∧ ∀ v ∈ values, min ≤ v ∧ v ≤ max := by
  unfold parsePart at h
  split at h
  · cases h
  · split at h
    · split at h
      · cases h
      · obtain ⟨bounds, hbounds, h⟩ := except_bind_eq_ok h
        obtain ⟨hmin, hle, hmax⟩ := parseBase_bounds hbounds hrange
        cases h
        exact stepValues_bounds hrange (Nat.le_refl 1) hmin hle hmax
    · split at h
      · cases h
      · obtain ⟨step, hstep, h⟩ := except_bind_eq_ok h
        obtain ⟨bounds, hbounds, h⟩ := except_bind_eq_ok h
        obtain ⟨hmin, hle, hmax⟩ := parseBase_bounds hbounds hrange
        have hpos := (parseNumber_bounds hstep ⟨by omega, fun hf => by cases hf⟩).1
        cases h
        exact stepValues_bounds hrange hpos hmin hle hmax
    · cases h

theorem mem_addValue {a : Nat} : a ∈ addValue values v ↔ a ∈ values ∨ a = v := by
  unfold addValue
  split
  · constructor
    · exact .inl
    · rintro (ha | rfl)
      · exact ha
      · assumption
  · rw [List.mem_append, List.mem_singleton]

theorem addValue_nodup (h : values.Nodup) : (addValue values v).Nodup := by
  unfold addValue
  split
  · exact h
  · rename_i hnew
    rw [← List.concat_eq_append]
    exact h.concat hnew

theorem mem_foldl_addValue {a : Nat} : ∀ {selected values : List Nat},
    a ∈ selected.foldl addValue values ↔ a ∈ values ∨ a ∈ selected
  | [], values => by simp
  | v :: selected, values => by
    rw [List.foldl_cons, mem_foldl_addValue, mem_addValue, List.mem_cons, or_assoc]

theorem foldl_addValue_nodup (selected : List Nat) : ∀ {values : List Nat}, values.Nodup → (selected.foldl addValue values).Nodup := by
  induction selected with
  | nil => exact fun h => h
  | cons v selected ih => exact fun h => ih (addValue_nodup h)

/-- **The parts together** select values of the range, each once. -/
theorem parseParts_bounds (hrange : Range min max sundayAlias) : ∀ {parts : List (List Char)} {values all : List Nat},
    parseParts raw min max sundayAlias parts values = .ok all → values.Nodup → (∀ v ∈ values, min ≤ v ∧ v ≤ max) →
      all.Nodup ∧ ∀ v ∈ all, min ≤ v ∧ v ≤ max
  | [], _, _, h, hnodup, hin => by
    cases h
    exact ⟨hnodup, hin⟩
  | part :: parts, values, all, h, hnodup, hin => by
    obtain ⟨selected, hselected, h⟩ := except_bind_eq_ok h
    refine parseParts_bounds hrange h (foldl_addValue_nodup _ hnodup) ?_
    intro v hv
    rcases mem_foldl_addValue.1 hv with hv | hv
    · exact hin v hv
    · exact (parsePart_bounds hselected hrange).2 v hv

theorem rising_of_sorted (h : values.Nodup) : (values.insertionSort (· ≤ ·)).Pairwise (· < ·) := by
  have hsorted : (values.insertionSort (· ≤ ·)).Pairwise (· ≤ ·) := List.pairwise_insertionSort _ _
  have hnodup : (values.insertionSort (· ≤ ·)).Nodup := (List.perm_insertionSort (· ≤ ·) values).nodup_iff.2 h
  exact (hsorted.and hnodup).imp (fun h => Nat.lt_of_le_of_ne h.1 h.2)

theorem isWildcard_whole {sorted : List Nat} (h : isWildcard sorted min max = true) : ∀ v, min ≤ v → v ≤ max → v ∈ sorted := by
  unfold isWildcard at h
  rw [Bool.and_eq_true, decide_eq_true_eq, List.all_eq_true] at h
  intro v hmin hmax
  have hindex : v - min < sorted.length := by omega
  have hvalue := h.2 (sorted[v - min], v - min) (List.mem_zipIdx_iff_getElem?.2 (List.getElem?_eq_getElem hindex))
  have heq : sorted[v - min] = v := by
    have := beq_iff_eq.1 hvalue
    simp only at this
    omega
  rw [← heq]
  exact List.getElem_mem hindex

def parseField (raw : List Char) (min max : Nat) (sundayAlias : Bool) (hrange : Range min max sundayAlias) :
    Except String (CronField min max) :=
  match h : parseParts raw min max sundayAlias (Js.splitAt (· == ',') raw) [] with
  | .error e => .error e
  | .ok values =>
    if hempty : values = [] then .error ("cron field '" ++ String.ofList raw ++ "' selects no values")
    else .ok {
      values := values.insertionSort (· ≤ ·)
      wildcard := isWildcard (values.insertionSort (· ≤ ·)) min max
      rising := rising_of_sorted (parseParts_bounds hrange h List.nodup_nil (List.forall_mem_nil _)).1
      nonempty := fun hnil => hempty ((List.perm_insertionSort (· ≤ ·) values).symm.trans (hnil ▸ List.Perm.refl _)).eq_nil
      within := fun v hv => (parseParts_bounds hrange h List.nodup_nil (List.forall_mem_nil _)).2 v
        ((List.mem_insertionSort (· ≤ ·)).1 hv)
      whole := isWildcard_whole }

/-- `replace(/\s+/g, " ")`; `spaced` says that the character before was one of the white space. -/
def collapse : Bool → List Char → List Char
  | _, [] => []
  | spaced, c :: cs =>
    if Js.isSpace c then if spaced then collapse true cs else ' ' :: collapse true cs else c :: collapse false cs

def trim (text : List Char) : List Char := ((text.dropWhile Js.isSpace).reverse.dropWhile Js.isSpace).reverse

def parseCron (expression : String) : Except String ParsedCron :=
  if (collapse false (trim expression.toList)).isEmpty ||
      decide (maxExpressionLength < Js.utf16Length (String.ofList (collapse false (trim expression.toList)))) then
    .error ("cron expression must contain 1-" ++ toString maxExpressionLength ++ " characters")
  else match Js.splitAt (· == ' ') (collapse false (trim expression.toList)) with
    | [minute, hour, dayOfMonth, month, dayOfWeek] => do
      let minute ← parseField minute 0 59 false (by decide)
      let hour ← parseField hour 0 23 false (by decide)
      let dayOfMonth ← parseField dayOfMonth 1 31 false (by decide)
      let month ← parseField month 1 12 false (by decide)
      let dayOfWeek ← parseField dayOfWeek 0 6 true (by decide)
      .ok ⟨minute, hour, dayOfMonth, month, dayOfWeek⟩
    | _ => .error "cron expression must contain exactly five fields"

end Wollipog.Cron
